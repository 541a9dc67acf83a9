import Mathlib.Data.List.Dedup
import YouMi.Library.Runs
import YouMi.Coordinator.PostTask

/-!
# Promotions over the runs of a pipeline

The conversations of the sub-agents stay from one run to the next, and so do the counts of
successes.  Each promotion is earned by as many calls as were counted as long as no run
reads a message again that an earlier run has read.
-/

namespace YouMi.Coordinator

open YouMi.Core YouMi.Library YouMi.Python

/-! ## What a promotion asks for -/

/-- Each call once, in the order in which they were first read. -/
def distinctCalls (calls : List Reading) : List Reading := calls.reverse.dedup.reverse

/-- The last calls are successes, as many as were counted and enough for a promotion. -/
def Earned (total : Nat) (calls : List Reading) : Prop :=
  promotionMinSuccesses ≤ total ∧ ∃ recent, recent <:+ distinctCalls calls ∧
    recent.length = total ∧ ∀ call ∈ recent, isFailure call.content = false

/-- The end of an account of calls: new calls, which are successes, as many as are counted. -/
def Streak (calls : List Reading) (count : Nat) : Prop :=
  ∃ before recent, calls = before ++ recent ∧ recent.length = count ∧ recent.Nodup ∧
    recent.Disjoint before ∧ ∀ call ∈ recent, isFailure call.content = false

theorem distinctCalls_append {before recent : List Reading} (distinct : recent.Nodup)
    (apart : recent.Disjoint before) :
    distinctCalls (before ++ recent) = distinctCalls before ++ recent := by
  have apartReversed : recent.reverse.Disjoint before.reverse := fun call inRecent inBefore =>
    apart (List.mem_reverse.mp inRecent) (List.mem_reverse.mp inBefore)
  unfold distinctCalls
  rw [List.reverse_append, apartReversed.dedup_append,
    (List.nodup_reverse.mpr distinct).dedup, List.reverse_append, List.reverse_reverse]

namespace Streak

variable {calls given : List Reading} {count : Nat}

theorem begin (calls : List Reading) : Streak calls 0 :=
  ⟨calls, [], (List.append_nil calls).symm, rfl, List.nodup_nil, List.disjoint_nil_left _,
    fun _ member => absurd member List.not_mem_nil⟩

theorem append (streak : Streak calls count) (distinct : given.Nodup)
    (new : ∀ call ∈ given, call ∉ calls) (successes : failed given = []) :
    Streak (calls ++ given) (count + given.length) := by
  obtain ⟨before, recent, rfl, rfl, recentDistinct, apart, noFailure⟩ := streak
  have given_ne {call : Reading} (member : call ∈ given) : call ∉ before ∧ call ∉ recent :=
    ⟨fun there => new call member (List.mem_append_left _ there),
      fun there => new call member (List.mem_append_right _ there)⟩
  refine ⟨before, recent ++ given, List.append_assoc .., List.length_append, ?_, ?_, ?_⟩
  · refine List.nodup_append.mpr ⟨recentDistinct, distinct, ?_⟩
    rintro call inRecent other inGiven rfl
    exact (given_ne inGiven).2 inRecent
  · intro call member inBefore
    rcases List.mem_append.mp member with inRecent | inGiven
    · exact apart inRecent inBefore
    · exact (given_ne inGiven).1 inBefore
  · intro call member
    rcases List.mem_append.mp member with inRecent | inGiven
    · exact noFailure call inRecent
    · simpa using List.filter_eq_nil_iff.mp successes call inGiven

theorem earned (streak : Streak calls count) (enough : promotionMinSuccesses ≤ count) :
    Earned count calls := by
  obtain ⟨before, recent, rfl, length, distinct, apart, noFailure⟩ := streak
  refine ⟨enough, recent, ?_, length, noFailure⟩
  rw [distinctCalls_append distinct apart]
  exact List.suffix_append _ _

end Streak

/-! ## What a run does to the count of a tool -/

namespace PostTaskPipeline

variable {use : PipelineUse} {s : PostTaskPipeline} {exp : ToolExperience}

/-- The count of a tool after its experience, and what it was promoted with. -/
inductive Handled (exp : ToolExperience) (before : Nat) : Nat → Option Nat → Prop where
  | failed (some : 0 < exp.failureCount) : Handled exp before 0 none
  | counted (none : exp.failureCount = 0) : Handled exp before (before + exp.usageCount) .none
  | promoted (none : exp.failureCount = 0)
      (enough : promotionMinSuccesses ≤ before + exp.usageCount) :
      Handled exp before 0 (some (before + exp.usageCount))

@[simp]
theorem successes_withSuccesses (toolName other : String) (count : Nat) :
    (s.withSuccesses toolName count).successes other =
      if other = toolName then count else s.successes other := by
  unfold withSuccesses successes
  rw [OrderedDict.lookup_assign]
  split <;> rfl

theorem failureCount_of_unused (unused : exp.usageCount = 0) : exp.failureCount = 0 := by
  unfold ToolExperience.failureCount
  rw [unused, Nat.cast_zero, zero_mul, round_zero]
  rfl

theorem promoteTool_spec (use : PipelineUse) (s : PostTaskPipeline) (toolName : String) (total : Nat) :
    (s.promoteTool use toolName total).2.1.toolName = toolName ∧
      ((s.promoteTool use toolName total).1 = s ∧
          (s.promoteTool use toolName total).2.1.promoted = none ∨
        (s.promoteTool use toolName total).1 = s.withSuccesses toolName 0 ∧
          (s.promoteTool use toolName total).2.1.promoted = some total) := by
  unfold promoteTool
  split
  · exact ⟨rfl, .inl ⟨rfl, rfl⟩⟩
  · split
    · exact ⟨rfl, .inr ⟨rfl, rfl⟩⟩
    · exact ⟨rfl, .inl ⟨rfl, rfl⟩⟩

theorem updateVersion_spec (use : PipelineUse) (s : PostTaskPipeline) (exp : ToolExperience) :
    (s.updateVersion use exp).2.1.toolName = exp.toolName ∧
      Handled exp (s.successes exp.toolName) ((s.updateVersion use exp).1.successes exp.toolName)
        (s.updateVersion use exp).2.1.promoted ∧
      ∀ other, other ≠ exp.toolName →
        (s.updateVersion use exp).1.successes other = s.successes other := by
  unfold updateVersion
  split
  · rename_i unused
    refine ⟨rfl, ?_, fun _ _ => rfl⟩
    have same : Handled exp (s.successes exp.toolName)
        (s.successes exp.toolName + exp.usageCount) none := .counted (failureCount_of_unused unused)
    rwa [unused] at same
  · split
    · rename_i some
      refine ⟨rfl, ?_, fun other ne => by simp [ne]⟩
      rw [successes_withSuccesses, if_pos rfl]
      exact .failed some
    · rename_i notSome
      have none : exp.failureCount = 0 := by omega
      dsimp only
      have counts (other : String) :
          (s.withSuccesses exp.toolName (s.successes exp.toolName + exp.usageCount)).successes
              other = if other = exp.toolName then s.successes exp.toolName + exp.usageCount
            else s.successes other := successes_withSuccesses _ _ _
      have onlyCounted : Handled exp (s.successes exp.toolName)
          ((s.withSuccesses exp.toolName (s.successes exp.toolName + exp.usageCount)).successes
            exp.toolName) .none := by
        rw [counts, if_pos rfl]
        exact .counted none
      have others (other : String) (ne : other ≠ exp.toolName) :
          (s.withSuccesses exp.toolName (s.successes exp.toolName + exp.usageCount)).successes
            other = s.successes other := by rw [counts, if_neg ne]
      split
      · rename_i eligible
        split
        · exact ⟨rfl, onlyCounted, others⟩
        · exact ⟨rfl, onlyCounted, others⟩
        · obtain ⟨name, ⟨same, promoted⟩ | ⟨same, promoted⟩⟩ := promoteTool_spec use
            (s.withSuccesses exp.toolName (s.successes exp.toolName + exp.usageCount))
            exp.toolName (s.successes exp.toolName + exp.usageCount)
          · rw [name, same, promoted]
            exact ⟨rfl, onlyCounted, others⟩
          · rw [name, same, promoted]
            refine ⟨rfl, ?_, fun other ne => ?_⟩
            · rw [successes_withSuccesses, if_pos rfl]
              refine .promoted none ?_
              unfold isPromotionEligible at eligible
              rw [Bool.and_eq_true, decide_eq_true_eq] at eligible
              exact eligible.1
            · rw [successes_withSuccesses, if_neg ne, others other ne]
      · exact ⟨rfl, onlyCounted, others⟩

/-- The work on one tool. -/
def workOn (toolName : String) (handlings : List Handling) : List Handling :=
  handlings.filter fun handling => handling.toolName = toolName

/-- A tool is worked on once or not at all. -/
theorem updateVersions_tool (use : PipelineUse) (toolName : String) (s : PostTaskPipeline)
    {experiences : List ToolExperience}
    (distinct : (experiences.map ToolExperience.toolName).Nodup) :
    workOn toolName (s.updateVersions use experiences).2.1 = [] ∧
        (s.updateVersions use experiences).1.successes toolName = s.successes toolName ∨
      ∃ exp ∈ experiences, exp.toolName = toolName ∧ ∃ promoted,
        workOn toolName (s.updateVersions use experiences).2.1 = [⟨toolName, promoted⟩] ∧
        Handled exp (s.successes toolName)
          ((s.updateVersions use experiences).1.successes toolName) promoted := by
  induction experiences generalizing s with
  | nil => exact .inl ⟨rfl, rfl⟩
  | cons exp rest ih =>
      obtain ⟨absent, later⟩ := List.nodup_cons.mp distinct
      obtain ⟨name, handled, others⟩ := updateVersion_spec use s exp
      unfold updateVersions
      generalize s.updateVersion use exp = updated at name handled others ⊢
      obtain ⟨after, handling, result⟩ := updated
      dsimp only at name handled others ⊢
      by_cases here : exp.toolName = toolName
      · subst here
        have work : workOn exp.toolName [handling] = [⟨exp.toolName, handling.promoted⟩] := by
          rw [← name]
          simp [workOn]
        refine .inr ⟨exp, List.mem_cons_self, rfl, handling.promoted, ?_⟩
        cases result with
        | error fault => exact ⟨work, handled⟩
        | ok value =>
            rcases ih after later with ⟨nothing, same⟩ | ⟨other, isOther, sameName, _⟩
            · refine ⟨?_, ?_⟩
              · change workOn exp.toolName ([handling] ++ _) = _
                unfold workOn at work nothing ⊢
                rw [List.filter_append, work, nothing]
                rfl
              · dsimp only
                rw [same]
                exact handled
            · exact absurd (List.mem_map.mpr ⟨other, isOther, sameName⟩) absent
      · have work : workOn toolName [handling] = [] :=
          List.filter_cons_of_neg (by simpa [name] using here)
        have before : after.successes toolName = s.successes toolName :=
          others toolName (Ne.symm here)
        cases result with
        | error fault => exact .inl ⟨work, before⟩
        | ok value =>
            have more (handlings : List Handling) :
                workOn toolName (handling :: handlings) = workOn toolName handlings := by
              change workOn toolName ([handling] ++ handlings) = _
              unfold workOn at work ⊢
              rw [List.filter_append, work, List.nil_append]
            dsimp only
            rw [more, ← before]
            rcases ih after later with nothing | ⟨other, isOther, found⟩
            · exact .inl nothing
            · exact .inr ⟨other, List.mem_cons_of_mem _ isOther, found⟩

/-! ## What a run does -/

theorem compare_keeps (use : PipelineUse) (s : PostTaskPipeline) (exp : ToolExperience) :
    ∃ counts, (s.compare use exp).1 = { s with failureCounts := counts } := by
  unfold compare withFailures
  dsimp only
  split
  · split
    · exact ⟨_, rfl⟩
    · split
      · split
        · exact ⟨_, rfl⟩
        · exact ⟨_, rfl⟩
      · exact ⟨_, rfl⟩
  · exact ⟨_, rfl⟩

theorem updateFailures_keeps (use : PipelineUse) (s : PostTaskPipeline) (exp : ToolExperience) :
    ∃ counts, (s.updateFailures use exp).1 = { s with failureCounts := counts } := by
  unfold updateFailures
  split
  · exact ⟨_, rfl⟩
  · split
    · exact ⟨_, rfl⟩
    · exact ⟨_, rfl⟩
    · dsimp only
      split
      · exact ⟨_, rfl⟩
      · exact compare_keeps use s exp

/-- The fourth stage changes the counts of failures only. -/
theorem updateGlobalMemory_keeps (use : PipelineUse) (s : PostTaskPipeline)
    (experiences : List ToolExperience) :
    ∃ counts, (s.updateGlobalMemory use experiences).1 = { s with failureCounts := counts } := by
  induction experiences generalizing s with
  | nil => exact ⟨_, rfl⟩
  | cons exp rest ih =>
      obtain ⟨counts, same⟩ := updateFailures_keeps use s exp
      unfold updateGlobalMemory
      generalize s.updateFailures use exp = updated at same ⊢
      obtain ⟨after, comparison, result⟩ := updated
      dsimp only at same
      subst same
      cases result with
      | error fault => exact ⟨_, rfl⟩
      | ok value =>
          obtain ⟨later, same⟩ := ih { s with failureCounts := counts }
          exact ⟨later, same⟩

/-- A run leaves the count of a tool alone, or works on the tool once. -/
def WorksOn (s : PostTaskPipeline) (given : List Reading) (ran : Ran) (toolName : String) : Prop :=
  workOn toolName ran.handlings = [] ∧ ran.pipeline.successes toolName = s.successes toolName ∨
    ∃ exp, Experienced exp given ∧ exp.toolName = toolName ∧ ∃ promoted,
      workOn toolName ran.handlings = [⟨toolName, promoted⟩] ∧
        Handled exp (s.successes toolName) (ran.pipeline.successes toolName) promoted

theorem process_worksOn (use : PipelineUse) (s : PostTaskPipeline) {given : List Reading}
    {experiences : List ToolExperience}
    (distinct : (experiences.map ToolExperience.toolName).Nodup)
    (experienced : ∀ exp ∈ experiences, Experienced exp given) (toolName : String) :
    WorksOn s given (s.process use experiences) toolName := by
  have fourth : ∃ counts, (if s.globalMemory then s.updateGlobalMemory use experiences
      else (s, [], .ok ())).1 = { s with failureCounts := counts } := by
    split
    · exact updateGlobalMemory_keeps use s experiences
    · exact ⟨_, rfl⟩
  unfold process
  generalize (if s.globalMemory then s.updateGlobalMemory use experiences
      else (s, [], .ok ())) = updated at fourth ⊢
  obtain ⟨after, comparisons, result⟩ := updated
  obtain ⟨counts, rfl⟩ := fourth
  dsimp only
  cases caught result with
  | error fault => exact .inl ⟨rfl, rfl⟩
  | ok value =>
      dsimp only
      unfold updateToolVersions
      dsimp only
      split
      · rcases updateVersions_tool use toolName { s with failureCounts := counts } distinct with
          nothing | ⟨exp, isExp, name, promoted, work, handled⟩
        · exact .inl nothing
        · exact .inr ⟨exp, experienced exp isExp, name, promoted, work, handled⟩
      · exact .inl ⟨rfl, rfl⟩

theorem run_worksOn (use : PipelineUse) (s : PostTaskPipeline)
    (conversations : List (List Entry)) (toolName : String) :
    WorksOn s (conversations.flatMap readings) (s.run use conversations) toolName := by
  unfold run
  cases collected : collectToolExperiences use.hashableSlices conversations with
  | none => exact .inl ⟨rfl, rfl⟩
  | some experiences =>
      obtain ⟨distinct, experienced⟩ := collect_spec collected
      cases use.between with
      | error fault => exact .inl ⟨rfl, rfl⟩
      | ok value => exact process_worksOn use s distinct experienced toolName

end PostTaskPipeline

/-! ## Runs one after another -/

/-- The end of a task: what the conversations of the sub-agents are then, and what the run
meets. -/
structure Completion where
  use : PipelineUse
  conversations : List (List Entry)

def Completion.given (completion : Completion) : List Reading :=
  completion.conversations.flatMap readings

/-- The pipeline, and the readings that its runs have worked on. -/
structure Ledger where
  pipeline : PostTaskPipeline
  processed : List Reading := []

namespace Ledger

def ran (s : Ledger) (completion : Completion) : PostTaskPipeline.Ran :=
  s.pipeline.run completion.use completion.conversations

def step (s : Ledger) (completion : Completion) : Ledger where
  pipeline := (s.ran completion).pipeline
  processed := s.processed ++
    (s.ran completion).handlings.flatMap fun handling => ofTool handling.toolName completion.given

/-- Each promotion of the run is earned by the calls of the tool that have been read. -/
def PromotesEarned (s : Ledger) (completion : Completion) : Prop :=
  ∀ handling ∈ (s.ran completion).handlings, ∀ total, handling.promoted = some total →
    Earned total (ofTool handling.toolName (s.processed ++ completion.given))

/-- The readings of a tool without failures are new, each of them once. -/
def ReadsNew (s : Ledger) (completion : Completion) : Prop :=
  ∀ toolName, failed (ofTool toolName completion.given) = [] →
    (ofTool toolName completion.given).Nodup ∧
      ∀ call ∈ ofTool toolName completion.given, call ∉ s.processed

/-- The count of each tool is that of its last calls. -/
def Accounts (s : Ledger) : Prop :=
  ∀ toolName, Streak (ofTool toolName s.processed) (s.pipeline.successes toolName)

variable {s : Ledger} {completion : Completion}

theorem ofTool_append (toolName : String) (first second : List Reading) :
    ofTool toolName (first ++ second) = ofTool toolName first ++ ofTool toolName second :=
  List.filter_append ..

theorem mem_of_mem_ofTool {toolName : String} {call : Reading} {given : List Reading}
    (member : call ∈ ofTool toolName given) : call ∈ given := List.mem_of_mem_filter member

/-- Of what a run works on, the readings of a tool are there as often as the tool is. -/
theorem ofTool_work (toolName : String) (handlings : List Handling) (given : List Reading) :
    ofTool toolName (handlings.flatMap fun handling => ofTool handling.toolName given) =
      (PostTaskPipeline.workOn toolName handlings).flatMap fun _ => ofTool toolName given := by
  induction handlings with
  | nil => rfl
  | cons handling rest ih =>
      rw [List.flatMap_cons, ofTool_append, ih]
      unfold PostTaskPipeline.workOn
      by_cases same : handling.toolName = toolName
      · rw [List.filter_cons_of_pos (by simpa using same), List.flatMap_cons, same]
        unfold ofTool
        rw [List.filter_filter]
        simp
      · rw [List.filter_cons_of_neg (by simpa using same)]
        have none : ofTool toolName (ofTool handling.toolName given) = [] := by
          refine List.filter_eq_nil_iff.mpr fun call member => ?_
          have isOther : call.toolName = handling.toolName := by
            simpa using (List.mem_filter.mp member).2
          simpa [isOther] using same
        rw [none, List.nil_append]

/-- What the work of a run on a tool makes of its account. -/
theorem streak_of_handled {calls given : List Reading} {exp : ToolExperience} {before after : Nat}
    {promoted : Option Nat} (streak : Streak calls before)
    (experienced : Experienced exp given)
    (handled : PostTaskPipeline.Handled exp before after promoted)
    (new : failed (ofTool exp.toolName given) = [] → (ofTool exp.toolName given).Nodup ∧
      ∀ call ∈ ofTool exp.toolName given, call ∉ calls) :
    Streak (calls ++ ofTool exp.toolName given) after ∧ ∀ total, promoted = some total →
      Earned total (calls ++ ofTool exp.toolName given) := by
  have successes (none : exp.failureCount = 0) :
      Streak (calls ++ ofTool exp.toolName given) (before + exp.usageCount) := by
    have noFailure : failed (ofTool exp.toolName given) = [] :=
      List.eq_nil_of_length_eq_zero (experienced.failures.symm.trans none)
    rw [experienced.uses noFailure]
    exact streak.append (new noFailure).1 (new noFailure).2 noFailure
  cases handled with
  | failed some => exact ⟨.begin _, fun total isPromoted => nomatch isPromoted⟩
  | counted none => exact ⟨successes none, fun total isPromoted => nomatch isPromoted⟩
  | promoted none enough =>
      refine ⟨.begin _, fun total isPromoted => ?_⟩
      obtain rfl := Option.some.inj isPromoted
      exact (successes none).earned enough

/-- A run that reads new calls keeps the accounts and promotes on what was earned. -/
theorem step_spec (accounts : s.Accounts) (new : s.ReadsNew completion) :
    (s.step completion).Accounts ∧ s.PromotesEarned completion := by
  have spec (toolName : String) := PostTaskPipeline.run_worksOn completion.use s.pipeline
    completion.conversations toolName
  have newCalls {exp : ToolExperience}
      (none : failed (ofTool exp.toolName completion.given) = []) :
      (ofTool exp.toolName completion.given).Nodup ∧
        ∀ call ∈ ofTool exp.toolName completion.given, call ∉ ofTool exp.toolName s.processed :=
    ⟨(new _ none).1, fun call member there =>
      (new _ none).2 call member (mem_of_mem_ofTool there)⟩
  constructor
  · intro toolName
    change Streak (ofTool toolName (s.processed ++ _)) _
    rw [ofTool_append, ofTool_work]
    rcases spec toolName with ⟨nothing, same⟩ | ⟨exp, experienced, rfl, promoted, work, handled⟩
    · rw [show PostTaskPipeline.workOn toolName (s.ran completion).handlings = [] from nothing]
      rw [List.flatMap_nil, List.append_nil]
      change Streak _ ((s.ran completion).pipeline.successes toolName)
      rw [show (s.ran completion).pipeline.successes toolName = _ from same]
      exact accounts toolName
    · rw [show PostTaskPipeline.workOn exp.toolName (s.ran completion).handlings = _ from work]
      rw [List.flatMap_singleton]
      exact (streak_of_handled (accounts exp.toolName) experienced handled newCalls).1
  · intro handling member total isPromoted
    rw [ofTool_append]
    have worked : handling ∈ PostTaskPipeline.workOn handling.toolName
        (s.ran completion).handlings := List.mem_filter.mpr ⟨member, by simp⟩
    rcases spec handling.toolName with ⟨nothing, _⟩ |
      ⟨exp, experienced, name, promoted, work, handled⟩
    · rw [show PostTaskPipeline.workOn handling.toolName (s.ran completion).handlings = []
        from nothing] at worked
      cases worked
    · rw [show PostTaskPipeline.workOn handling.toolName (s.ran completion).handlings = _
        from work] at worked
      have same : handling.promoted = promoted :=
        congrArg Handling.promoted (List.mem_singleton.mp worked)
      rw [← name] at handled ⊢
      exact (streak_of_handled (accounts exp.toolName) experienced handled newCalls).2 total
        (same ▸ isPromoted)

/-- A pipeline without counts. -/
def begin (toolStore globalMemory : Bool) : Ledger where
  pipeline := { toolStore := toolStore, globalMemory := globalMemory }

/-- The end of a task after calls of one tool, with these answers. -/
def answering (contents : List String) : Completion where
  use := .willing
  conversations := [⟨0, .assistant none [⟨"call", "t"⟩]⟩ ::
    contents.mapIdx fun index content => ⟨index + 1, .tool "call" (.text content)⟩]

/-- The pipeline after two runs on one message. -/
def readTwice : Ledger :=
  ((begin true false).step (answering ["a"])).step (answering ["a"])

end Ledger

end YouMi.Coordinator

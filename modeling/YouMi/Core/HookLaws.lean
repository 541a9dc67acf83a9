import YouMi.Core.Hooks
import YouMi.Library.Best

/-!
# What becomes of the decisions of hooks

The handlers are asked in order until one blocks, and each sees what the earlier ones have
modified.  All modifications are returned exactly if nothing is to be returned of them, or
the last handler that decides modifies and gives every key again that an earlier one gave.
-/

namespace YouMi.Core.Hooks

open YouMi.Library YouMi.Python

/-! ## What is expected -/

/-- The decisions that have come back. -/
def decisions (calls : List HookCall) : List HookDecision :=
  calls.filterMap fun call => call.outcome.toOption

/-- The data of those that modify. -/
def modifications (made : List HookDecision) : List Dict :=
  (made.filter fun decision => decision.decision = .modify).map HookDecision.modifiedData

/-- All data, with the later over the earlier. -/
def mergeAll (d : Dict) (datas : List Dict) : Dict := datas.foldl update d

/-- The call of a handler. -/
def ask (entry : HookEntry) (context : HookContext) : HookCall :=
  ⟨entry, context, entry.handler context⟩

/-- No handler is asked after this call. -/
def HookCall.Ends (call : HookCall) : Prop :=
  match call.outcome with
  | .error fault => fault.isException = false
  | .ok decision => decision.decision = .block

instance : DecidablePred HookCall.Ends := fun ⟨_, _, outcome⟩ =>
  match outcome with
  | .error fault => inferInstanceAs (Decidable (fault.isException = false))
  | .ok decision => inferInstanceAs (Decidable (decision.decision = .block))

/-- The context with what the call has modified. -/
def HookContext.after (context : HookContext) (call : HookCall) : HookContext :=
  { context with extra := mergeAll context.extra (modifications (decisions [call])) }

/-- The calls go along the chain up to the one that ends it; each handler sees what has been
modified before. -/
inductive Asked : List HookEntry → HookContext → List HookCall → Prop where
  | nil (context : HookContext) : Asked [] context []
  | last {entry : HookEntry} {rest : List HookEntry} {context : HookContext}
      (ends : (ask entry context).Ends) : Asked (entry :: rest) context [ask entry context]
  | next {entry : HookEntry} {rest : List HookEntry} {context : HookContext}
      {calls : List HookCall} (goesOn : ¬(ask entry context).Ends)
      (later : Asked rest (context.after (ask entry context)) calls) :
      Asked (entry :: rest) context (ask entry context :: calls)

/-- What has to be returned after the decisions. -/
def Speaks (made : List HookDecision) (returned : HookDecision) : Prop :=
  match made.find? fun decision => decision.decision = .block with
  | some blocked => returned = blocked
  | none =>
      if modifications made = [] then returned.decision = .pass
      else returned.decision = .modify ∧ ∀ key, returned.modifiedData.lookup key =
        (mergeAll [] (modifications made)).lookup key

/-- The arguments for a tool after the decisions. -/
def mergedArguments (made : List HookDecision) (arguments : Dict) : PyVal :=
  ((mergeAll [] (modifications made)).lookup "tool_arguments").getD (.dict arguments)

/-- A chain of hooks does what it is for. -/
structure Honoured (registry : HookRegistry) (hookType : HookType) (context : HookContext) :
    Prop where
  ordered : (registry.hooks hookType).Pairwise fun first second => first.priority ≤ second.priority
  asked : Asked (registry.hooks hookType) context (registry.invoke hookType context).1
  raises : ∀ fault, (registry.invoke hookType context).2 = .error fault → fault.isException = false
  returned : ∀ decision, (registry.invoke hookType context).2 = .ok decision →
    Speaks (decisions (registry.invoke hookType context).1) decision
  executed : hookType = .beforeToolCall → ∀ decision,
    (registry.invoke hookType context).2 = .ok decision → decision.decision ≠ .block →
      ∀ world, registry.toolUse context world =
        { world (mergedArguments (decisions (registry.invoke hookType context).1)
            context.toolArguments) with
          beforeToolCall := .ok decision.seen }

/-! ## The condition -/

/-- A handler was cancelled, or one blocks, or none modifies, or the last one that decides
modifies and gives all keys that the others gave. -/
def LastSpeaks (calls : List HookCall) : Prop :=
  (∃ call ∈ calls, ∃ fault, call.outcome = .error fault ∧ fault.isException = false) ∨
  (∃ decision ∈ decisions calls, decision.decision = .block) ∨
  modifications (decisions calls) = [] ∨
  ∃ last, (decisions calls).getLast? = some last ∧ last.decision = .modify ∧
    ∀ data ∈ modifications (decisions calls), ∀ key ∈ data.keys, key ∈ last.modifiedData.keys

/-! ## Order -/

/-- Hooks of one priority stay in the order in which they come. -/
theorem filter_insertionSort (entries : List HookEntry) (priority : Int) :
    (entries.insertionSort fun first second => first.priority ≤ second.priority).filter
        (fun entry => entry.priority = priority) =
      entries.filter fun entry => entry.priority = priority := by
  have alike : (entries.filter fun entry => entry.priority = priority).Pairwise
      fun first second => first.priority ≤ second.priority := by
    refine List.pairwise_of_forall_mem_list fun first isFirst second isSecond => ?_
    have one := (List.mem_filter.mp isFirst).2
    have two := (List.mem_filter.mp isSecond).2
    simp only [decide_eq_true_eq] at one two
    rw [one, two]
  -- The lowest priority has the highest score.
  have parts : (byScore (fun entry => OrderDual.toDual entry.priority) entries).filter
      (fun entry => entry.priority = priority) =
        byScore (fun entry => OrderDual.toDual entry.priority)
          (entries.filter fun entry => entry.priority = priority) := filter_byScore _
  exact parts.trans alike.insertionSort_eq

/-- A hook comes after those of its priority that are there. -/
theorem filter_hooks_register (registry : HookRegistry) (hookType : HookType)
    (handler : HookHandler) (priority : Int) (pluginName : String) :
    ((registry.register hookType handler priority pluginName).hooks hookType).filter
        (fun entry => entry.priority = priority) =
      (registry.hooks hookType).filter (fun entry => entry.priority = priority) ++
        [⟨handler, priority, pluginName⟩] := by
  unfold HookRegistry.register
  dsimp only
  rw [if_pos rfl, filter_insertionSort, List.filter_append]
  simp

/-! ## Data -/

section Data

variable {d : Dict} {datas : List Dict} {key : String}

/-- A key is in the merged data if it is in some of them. -/
theorem isSome_lookup_mergeAll (distinct : ∀ data ∈ datas, data.keys.Nodup) :
    ((mergeAll d datas).lookup key).isSome ↔
      (d.lookup key).isSome ∨ ∃ data ∈ datas, key ∈ data.keys := by
  induction datas generalizing d with
  | nil => simp [mergeAll]
  | cons data rest ih =>
      have first := distinct data List.mem_cons_self
      have later := ih (d := update d data) fun other member =>
        distinct other (List.mem_cons_of_mem _ member)
      have here : ((update d data).lookup key).isSome ↔
          key ∈ data.keys ∨ (d.lookup key).isSome := by
        rw [lookup_update first, Option.isSome_or, Bool.or_eq_true,
          Dict.lookup_isSome_iff_mem_keys]
      unfold mergeAll at later ⊢
      rw [List.foldl_cons, later, here, List.exists_mem_cons_iff, or_assoc,
        or_left_comm]

theorem mergeAll_append (d : Dict) (datas : List Dict) (data : Dict) :
    mergeAll d (datas ++ [data]) = update (mergeAll d datas) data := List.foldl_concat ..

theorem modifications_append (made : List HookDecision) (decision : HookDecision) :
    modifications (made ++ [decision]) = modifications made ++ modifications [decision] := by
  unfold modifications
  rw [List.filter_append, List.map_append]

theorem distinct_of_mem_modifications {made : List HookDecision} {data : Dict}
    (member : data ∈ modifications made) : data.keys.Nodup := by
  obtain ⟨decision, _, rfl⟩ := List.mem_map.mp member
  exact decision.distinct

/-- The data of the last decision is all there is exactly if it gives every key. -/
theorem lookup_eq_mergeAll_iff {made : List HookDecision} {last : HookDecision}
    (isLast : made.getLast? = some last) (modifies : last.decision = .modify) :
    (∀ key, last.modifiedData.lookup key = (mergeAll [] (modifications made)).lookup key) ↔
      ∀ data ∈ modifications made, ∀ key ∈ data.keys, key ∈ last.modifiedData.keys := by
  obtain ⟨earlier, rfl⟩ := List.getLast?_eq_some_iff.mp isLast
  have given : modifications [last] = [last.modifiedData] := by
    simp [modifications, modifies]
  have all : ∀ data ∈ modifications (earlier ++ [last]), data.keys.Nodup :=
    fun _ => distinct_of_mem_modifications
  constructor
  · intro same data member key isKey
    have merged : ((mergeAll [] (modifications (earlier ++ [last]))).lookup key).isSome :=
      (isSome_lookup_mergeAll all).mpr (.inr ⟨data, member, isKey⟩)
    rw [← same key] at merged
    exact Dict.lookup_isSome_iff_mem_keys.mp merged
  · intro covers key
    rw [modifications_append, given, mergeAll_append, lookup_update last.distinct]
    cases found : last.modifiedData.lookup key with
    | some value => rfl
    | none =>
        have absent := Dict.lookup_eq_none_iff_not_mem.mp found
        cases before : (mergeAll [] (modifications earlier)).lookup key with
        | none => rfl
        | some value =>
            have earlierGives : (([] : Dict).lookup key).isSome ∨
                ∃ data ∈ modifications earlier, key ∈ data.keys :=
              (isSome_lookup_mergeAll fun data member => distinct_of_mem_modifications member).mp
                (by rw [before]; rfl)
            obtain none_ | ⟨data, member, isKey⟩ := earlierGives
            · cases none_
            · refine absurd (covers data ?_ key isKey) absent
              rw [modifications_append]
              exact List.mem_append_left _ member

end Data

/-! ## The loop -/

section Loop

variable {chain : List HookEntry} {context : HookContext} {lastDecision : HookDecision}

/-- The decision of the call, or the one before it. -/
def HookCall.decided (call : HookCall) (lastDecision : HookDecision) : HookDecision :=
  (call.outcome.toOption).getD lastDecision

theorem after_of_pass {call : HookCall} (keeps : modifications (decisions [call]) = []) :
    context.after call = context := by
  unfold HookContext.after
  rw [keeps]
  rfl

/-- One round of the loop. -/
theorem invokeEach_cons (entry : HookEntry) (rest : List HookEntry) (context : HookContext)
    (lastDecision : HookDecision) :
    invokeEach (entry :: rest) context lastDecision =
      if (ask entry context).Ends then ([ask entry context], (ask entry context).outcome)
      else
        (ask entry context ::
            (invokeEach rest (context.after (ask entry context))
              ((ask entry context).decided lastDecision)).1,
          (invokeEach rest (context.after (ask entry context))
            ((ask entry context).decided lastDecision)).2) := by
  have call : ask entry context = ⟨entry, context, entry.handler context⟩ := rfl
  conv_lhs => unfold invokeEach
  cases outcome : entry.handler context with
  | error fault =>
      rw [outcome] at call
      have keeps : context.after (ask entry context) = context :=
        after_of_pass (by rw [call]; rfl)
      have ends : (ask entry context).Ends ↔ fault.isException = false := by
        rw [call]
        rfl
      cases caught : fault.isException with
      | true =>
          rw [if_neg (ends.not.mpr (by rw [caught]; nofun)), keeps, call]
          simp only [caught, if_true]
          rfl
      | false =>
          rw [if_pos (ends.mpr caught), call]
          simp [caught]
  | ok decision =>
      rw [outcome] at call
      have ends : (ask entry context).Ends ↔ decision.decision = .block := by
        rw [call]
        rfl
      cases kind : decision.decision with
      | block =>
          rw [if_pos (ends.mpr kind), call]
          simp [kind]
      | modify =>
          have sees : context.after (ask entry context) =
              context.seeing decision.modifiedData := by
            have given : modifications (decisions [ask entry context]) =
                [decision.modifiedData] := by
              rw [call]
              simp [decisions, modifications, Except.toOption, kind]
            unfold HookContext.after
            rw [given]
            rfl
          rw [if_neg (ends.not.mpr (by rw [kind]; nofun)), sees, call]
          simp only [kind]
          rfl
      | pass =>
          have keeps : context.after (ask entry context) = context :=
            after_of_pass (by rw [call]; simp [decisions, modifications, Except.toOption, kind])
          rw [if_neg (ends.not.mpr (by rw [kind]; nofun)), keeps, call]
          simp only [kind]
          rfl

theorem asked_invokeEach (chain : List HookEntry) (context : HookContext)
    (lastDecision : HookDecision) :
    Asked chain context (invokeEach chain context lastDecision).1 := by
  induction chain generalizing context lastDecision with
  | nil => exact .nil context
  | cons entry rest ih =>
      rw [invokeEach_cons]
      split
      · rename_i ends
        exact .last ends
      · rename_i goesOn
        exact .next goesOn (ih _ _)

theorem decisions_cons (call : HookCall) (calls : List HookCall) :
    decisions (call :: calls) = call.outcome.toOption.toList ++ decisions calls := by
  unfold decisions
  rw [List.filterMap_cons]
  cases call.outcome.toOption <;> rfl

/-- What is returned is the last decision, and an error only where a call ends with one. -/
theorem returned_invokeEach (chain : List HookEntry) (context : HookContext)
    (lastDecision : HookDecision) :
    match (invokeEach chain context lastDecision).2 with
    | .ok decision =>
        decision =
          (decisions (invokeEach chain context lastDecision).1).getLast?.getD lastDecision ∧
        ∀ call ∈ (invokeEach chain context lastDecision).1, ∀ fault,
          call.outcome = .error fault → fault.isException = true
    | .error fault => fault.isException = false ∧
        ∃ call ∈ (invokeEach chain context lastDecision).1, call.outcome = .error fault := by
  induction chain generalizing context lastDecision with
  | nil => exact ⟨rfl, nofun⟩
  | cons entry rest ih =>
      rw [invokeEach_cons]
      split_ifs with ends
      · cases outcome : (ask entry context).outcome with
        | error fault =>
            rw [HookCall.Ends, outcome] at ends
            exact ⟨ends, _, List.mem_cons_self, outcome⟩
        | ok decision =>
            refine ⟨?_, fun call member fault failed => ?_⟩
            · rw [decisions_cons, outcome]
              rfl
            · rw [List.mem_singleton.mp member, outcome] at failed
              cases failed
      · have later := ih (context.after (ask entry context))
          ((ask entry context).decided lastDecision)
        generalize invokeEach rest (context.after (ask entry context))
          ((ask entry context).decided lastDecision) = run at later
        obtain ⟨calls, returned⟩ := run
        cases returned with
        | error fault =>
            obtain ⟨caught, call, member, failed⟩ := later
            exact ⟨caught, call, List.mem_cons_of_mem _ member, failed⟩
        | ok decision =>
            obtain ⟨same, caught⟩ := later
            refine ⟨?_, fun call member fault failed => ?_⟩
            · rw [same, decisions_cons, List.getLast?_append]
              unfold HookCall.decided
              cases (decisions calls).getLast? with
              | some last => rfl
              | none => cases (ask entry context).outcome <;> rfl
            · rcases List.mem_cons.mp member with rfl | later
              · cases given : fault.isException with
                | true => rfl
                | false =>
                    rw [HookCall.Ends, failed] at ends
                    exact absurd given ends
              · exact caught call later fault failed

/-- Only the last decision can be one that blocks. -/
theorem Asked.find_block {calls : List HookCall} (asked : Asked chain context calls)
    {blocked : HookDecision}
    (found : ((decisions calls).find? fun decision => decision.decision = .block) = some blocked) :
    (decisions calls).getLast? = some blocked := by
  induction asked with
  | nil => cases found
  | @last entry rest context ends =>
      rw [decisions_cons] at found ⊢
      cases outcome : (ask entry context).outcome with
      | error fault =>
          rw [outcome] at found
          cases found
      | ok decision =>
          rw [outcome] at found
          have same := List.mem_of_find?_eq_some found
          rw [List.mem_singleton.mp same]
          rfl
  | @next entry rest context calls goesOn later ih =>
      rw [decisions_cons] at found ⊢
      rw [List.getLast?_append]
      cases outcome : (ask entry context).outcome with
      | error fault =>
          rw [outcome] at found
          rw [ih found]
          rfl
      | ok decision =>
          rw [HookCall.Ends, outcome] at goesOn
          rw [outcome] at found
          have skipped : ((decision :: decisions calls).find? fun decision =>
              decision.decision = .block) =
                (decisions calls).find? fun decision => decision.decision = .block :=
            List.find?_cons_of_neg (by simpa using goesOn)
          rw [ih (skipped ▸ found)]
          rfl

end Loop

/-! ## The chain as a whole -/

section Chain

variable {registry : HookRegistry} {hookType : HookType} {context : HookContext}
  {decision : HookDecision}

theorem beforeToolCall_eq (registry : HookRegistry) (context : HookContext) :
    registry.beforeToolCall context = (registry.invoke .beforeToolCall context).2 := by
  unfold HookRegistry.beforeToolCall HookRegistry.hasHooks HookRegistry.invoke
  cases registry.hooks .beforeToolCall with
  | nil => rfl
  | cons entry rest => rfl

theorem toolUse_of_returned
    (returned : (registry.invoke .beforeToolCall context).2 = .ok decision)
    (world : PyVal → ToolUse) :
    registry.toolUse context world =
      { world (decision.arguments context.toolArguments) with
        beforeToolCall := .ok decision.seen } := by
  unfold HookRegistry.toolUse
  rw [beforeToolCall_eq, returned]

/-- With the right decision, the tool gets the right arguments. -/
theorem arguments_of_speaks {made : List HookDecision} (speaks : Speaks made decision)
    (goesOn : decision.decision ≠ .block) (arguments : Dict) :
    decision.arguments arguments = mergedArguments made arguments := by
  unfold Speaks at speaks
  unfold HookDecision.arguments mergedArguments
  split at speaks
  · rename_i blocked found
    rw [speaks] at goesOn
    exact absurd (by simpa using List.find?_some found) goesOn
  · split_ifs at speaks with nothing
    · rw [nothing, speaks]
      rfl
    · rw [if_pos speaks.1, speaks.2]

/-- The decision of the last handler is the right one exactly if the last one speaks for all. -/
theorem speaks_iff {calls : List HookCall} {chain : List HookEntry}
    (asked : Asked chain context calls)
    (isLast : decision = (decisions calls).getLast?.getD .passThrough)
    (caught : ∀ call ∈ calls, ∀ fault, call.outcome = .error fault → fault.isException = true) :
    Speaks (decisions calls) decision ↔ LastSpeaks calls := by
  have notCancelled : ¬∃ call ∈ calls, ∃ fault, call.outcome = .error fault ∧
      fault.isException = false := by
    rintro ⟨call, member, fault, failed, uncaught⟩
    rw [caught call member fault failed] at uncaught
    cases uncaught
  unfold Speaks LastSpeaks
  cases found : (decisions calls).find? fun decision => decision.decision = .block with
  | some blocked =>
      have blocks : blocked.decision = .block := by simpa using List.find?_some found
      rw [asked.find_block found] at isLast
      exact iff_of_true isLast
        (.inr (.inl ⟨blocked, List.mem_of_find?_eq_some found, blocks⟩))
  | none =>
      have unblocked : ¬∃ decision ∈ decisions calls, decision.decision = .block := by
        rintro ⟨decision, member, blocks⟩
        have skipped := List.find?_eq_none.mp found decision member
        exact skipped (by simpa using blocks)
      rw [or_iff_right notCancelled, or_iff_right unblocked]
      dsimp only
      by_cases nothing : modifications (decisions calls) = []
      · rw [if_pos nothing]
        refine iff_of_true ?_ (.inl nothing)
        cases last : (decisions calls).getLast? with
        | none =>
            rw [isLast, last]
            rfl
        | some decided =>
            have member := List.mem_of_getLast? last
            rw [isLast, last]
            change decided.decision = .pass
            cases kind : decided.decision with
            | pass => rfl
            | block => exact absurd ⟨decided, member, kind⟩ unblocked
            | modify =>
                have given : decided.modifiedData ∈ modifications (decisions calls) :=
                  List.mem_map_of_mem (List.mem_filter.mpr ⟨member, by simpa using kind⟩)
                rw [nothing] at given
                cases given
      · rw [if_neg nothing, or_iff_right nothing]
        cases last : (decisions calls).getLast? with
        | none =>
            rw [List.getLast?_eq_none_iff.mp last] at nothing
            exact absurd rfl nothing
        | some decided =>
            rw [last] at isLast
            change decision = decided at isLast
            rw [isLast]
            constructor
            · rintro ⟨modifies, same⟩
              exact ⟨decided, rfl, modifies, (lookup_eq_mergeAll_iff last modifies).mp same⟩
            · rintro ⟨other, isOther, modifies, covers⟩
              cases isOther
              exact ⟨modifies, (lookup_eq_mergeAll_iff last modifies).mpr covers⟩

/--
A chain of hooks is honoured exactly if one of them blocks, none modifies, or the last
one that decides modifies and gives every key which the others have given; or if one is
cancelled.
-/
theorem honoured_iff (registry : HookRegistry) (hookType : HookType) (context : HookContext) :
    Honoured registry hookType context ↔
      LastSpeaks (registry.invoke hookType context).1 := by
  have asked := asked_invokeEach (registry.hooks hookType) context .passThrough
  have returned := returned_invokeEach (registry.hooks hookType) context .passThrough
  change Asked _ _ (registry.invoke hookType context).1 at asked
  change match (registry.invoke hookType context).2 with
    | .ok decision =>
        decision =
          (decisions (registry.invoke hookType context).1).getLast?.getD .passThrough ∧ _
    | .error fault => _ at returned
  cases outcome : (registry.invoke hookType context).2 with
  | error fault =>
      rw [outcome] at returned
      obtain ⟨uncaught, call, member, failed⟩ := returned
      refine iff_of_true ⟨registry.sorted hookType, asked, ?_, ?_, ?_⟩
        (.inl ⟨call, member, fault, failed, uncaught⟩)
      · rintro other same
        rw [outcome] at same
        cases same
        exact uncaught
      · intro decision same
        rw [outcome] at same
        cases same
      · intro _ decision same
        rw [outcome] at same
        cases same
  | ok decision =>
      rw [outcome] at returned
      obtain ⟨isLast, caught⟩ := returned
      rw [← speaks_iff asked isLast caught]
      constructor
      · exact fun honoured => honoured.returned decision outcome
      · intro speaks
        refine ⟨registry.sorted hookType, asked, ?_, ?_, ?_⟩
        · intro fault same
          rw [outcome] at same
          cases same
        · intro other same
          rw [outcome] at same
          cases same
          exact speaks
        · rintro rfl other same goesOn world
          rw [outcome] at same
          cases same
          rw [toolUse_of_returned outcome, arguments_of_speaks speaks goesOn]

/-- The first of two hooks changes the arguments of a tool call, and the second passes. -/
def changedThenPassed : HookRegistry :=
  (HookRegistry.empty.register .beforeToolCall fun _ =>
      .ok (.modify [("tool_arguments", .dict [("path", .str "/safe")])] (by decide))).register
    .beforeToolCall fun _ => .ok .passThrough

/-- What the first hook has changed is lost. -/
theorem modification_lost :
    ¬∀ (registry : HookRegistry) (hookType : HookType) (context : HookContext),
      Honoured registry hookType context := by
  intro always
  have honoured := always changedThenPassed .beforeToolCall
    (toolContext "a" "a" "remove" [("path", .str "/")])
  obtain ⟨modifies, _⟩ := honoured.returned .passThrough rfl
  cases modifies

end Chain

end YouMi.Core.Hooks

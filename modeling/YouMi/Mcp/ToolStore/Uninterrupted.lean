import YouMi.Mcp.ToolStore.Interleavings

/-!
# Calls that nobody interrupts

The operations taken whole, as `step` takes them, are the calls of which each ends
before the next begins; so what is proved of their runs is proved of the calls.
-/

namespace YouMi.Mcp.ToolStore

open YouMi.Core YouMi.Library YouMi.Library.Tasks

variable {V : Type}

section Uninterrupted

variable {env : Env V} {s : StoreState V}

/-- No vector is stored under the row id. -/
def Unembedded (s : StoreState V) (rowId : Nat) : Prop :=
  ∀ level, ∀ entry ∈ s.index level, entry.1 ≠ rowId

theorem dropVec_eq_self {rowId : Nat} {level : VecLevel}
    (unembedded : ∀ entry ∈ s.index level, entry.1 ≠ rowId) : dropVec level rowId s = s := by
  have kept : (s.index level).filter (fun entry => entry.1 ≠ rowId) = s.index level :=
    List.filter_eq_self.mpr fun entry member => by simpa using unembedded entry member
  cases level
  · exact congrArg (fun index => { s with vecToolsIdx := index }) kept
  · exact congrArg (fun index => { s with vecToolsL2Idx := index }) kept

/-- With the changelog of a new version, unless it is empty. -/
def logged (toolId changelog : String) (s : StoreState V) : StoreState V :=
  if changelog = "" then s
  else
    { s with toolChangelogs := s.toolChangelogs ++ [⟨toolId, "version_update", changelog⟩] }

theorem endsIn_log {task : Task V} {before : Connection V} {toolId changelog : String}
    (known : Known s toolId)
    (embedded : segment before task env = (⟨s, s⟩, afterEmbed toolId changelog)) :
    EndsIn segment env before task ⟨logged toolId changelog s, logged toolId changelog s⟩ := by
  unfold afterEmbed at embedded
  unfold logged
  split at embedded
  · rename_i empty
    rw [if_pos empty]
    exact .last embedded
  · rename_i given
    rw [if_neg given]
    refine .next embedded (.last ?_)
    rw [segment, taskSegment, insertChangelog, if_pos (refers_iff.mpr known)]
    rfl

/-- One vector of a row; nothing where it is not made or refused. -/
def embedOnce (env : Env V) (level : VecLevel) (job : EmbedJob) (s : StoreState V) :
    Option (StoreState V) :=
  (env.embedOne.bind fun embed => embed (job.text level)).bind fun embedding =>
    writeVec level job.rowId job.toolId job.toolName embedding s

theorem embedToolRow_eq (job : EmbedJob) :
    embedToolRow env job.rowId job.toolId job.toolName job.summaryL1 job.summaryL2 s =
      match embedOnce env .l1 job s with
      | none => s
      | some first =>
          if job.summaryL2 = "" then first else (embedOnce env .l2 job first).getD first := by
  unfold embedToolRow embedOnce
  cases env.embedOne with
  | none => rfl
  | some embed => rfl

/-- What the segment of a vector does to a row that has none yet. -/
theorem embedLevel_eq (env : Env V) {job : EmbedJob} (known : Known s job.toolId)
    (level : VecLevel) (unembedded : ∀ entry ∈ s.index level, entry.1 ≠ job.rowId) :
    embedLevel env level job s =
      match embedOnce env level job s with
      | some written => (.commit written, true)
      | none => (.leave s, false) := by
  unfold embedLevel embedOnce
  cases env.embedOne.bind fun embed => embed (job.text level) with
  | none => rfl
  | some embedding =>
      have refused : ¬(s.vecExtension.isNone ∧ refers s job.toolId = false) := by
        simp [refers_iff.mpr known]
      refine (if_neg refused).trans ?_
      dsimp only [Option.bind_some]
      cases writeVec level job.rowId job.toolId job.toolName embedding s with
      | none => exact congrArg (fun left => (Ending.leave left, false)) (dropVec_eq_self unembedded)
      | some written => rfl

/-- A vector of the first level leaves the other level alone. -/
theorem index_l2_embedOnce {job : EmbedJob} {first : StoreState V}
    (done : embedOnce env .l1 job s = some first) : first.index .l2 = s.index .l2 := by
  obtain ⟨embedding, _, written⟩ := Option.bind_eq_some_iff.mp done
  unfold writeVec at written
  split at written
  · split at written <;> cases written
    rfl
  · split at written <;> cases written <;> rfl

theorem embedOnce_tools {level : VecLevel} {job : EmbedJob} {next : StoreState V}
    (done : embedOnce env level job s = some next) : next.tools = s.tools := by
  obtain ⟨embedding, _, written⟩ := Option.bind_eq_some_iff.mp done
  exact writeVec_tools written

theorem endsIn_embed {job : EmbedJob} {changelog : String} (known : Known s job.toolId)
    (unembedded : Unembedded s job.rowId) {embedded : StoreState V}
    (embeds : embedded =
      embedToolRow env job.rowId job.toolId job.toolName job.summaryL1 job.summaryL2 s) :
    EndsIn segment env ⟨s, s⟩ (.embed .l1 job changelog)
      ⟨logged job.toolId changelog embedded, logged job.toolId changelog embedded⟩ := by
  rw [embedToolRow_eq] at embeds
  have start := embedLevel_eq env known .l1 (unembedded .l1)
  cases one : embedOnce env .l1 job s with
  | none =>
      rw [one] at embeds start
      subst embeds
      apply endsIn_log known
      simp only [segment, taskSegment, start, EmbedJob.goesOn]
      rfl
  | some first =>
      rw [one] at embeds start
      have known' : Known first job.toolId := by
        unfold Known
        rw [embedOnce_tools one]
        exact known
      dsimp only at embeds
      by_cases single : job.summaryL2 = ""
      · rw [if_pos single] at embeds
        subst embeds
        apply endsIn_log known'
        simp only [segment, taskSegment, start, EmbedJob.goesOn, single]
        rfl
      · rw [if_neg single] at embeds
        have goesOn : segment ⟨s, s⟩ (.embed .l1 job changelog) env =
            (⟨first, first⟩, some (.embed .l2 job changelog)) := by
          simp [segment, taskSegment, start, EmbedJob.goesOn, single, Connection.end]
        refine .next goesOn ?_
        · have again := embedLevel_eq env known' .l2 (index_l2_embedOnce one ▸ unembedded .l2)
          cases two : embedOnce env .l2 job first with
          | none =>
              rw [two] at embeds again
              subst embeds
              apply endsIn_log known'
              simp only [segment, taskSegment, again, EmbedJob.goesOn]
              rfl
          | some second =>
              rw [two] at embeds again
              obtain rfl : embedded = second := embeds
              have known'' : Known embedded job.toolId := by
                unfold Known
                rw [embedOnce_tools two]
                exact known'
              apply endsIn_log known''
              simp only [segment, taskSegment, again, EmbedJob.goesOn]
              rfl

/-- A committed row gets the row id after all that were given. -/
theorem rowIdOf_commitHead {tools next : ToolTable} {row : ToolRow} (isHead : row.isHead = true)
    (committed : commitHead tools row = some next) :
    rowIdOf next row.toolId = tools.seq + 1 := by
  obtain ⟨rows, fresh⟩ := commitHead_rows isHead committed
  have before : (tools.rows.map (makeRoom (stored tools row))).find?
      (fun old => old.toolId = row.toolId) = none := by
    rw [List.find?_eq_none]
    intro later member
    obtain ⟨old, here, rfl⟩ := List.mem_map.mp member
    rw [(makeRoom_keepsPlace _).toolId, decide_eq_true_eq]
    exact fresh.toolId old here
  rw [rowIdOf, rowById, rows, List.find?_append, before]
  simp [stored, ToolRow.numbered]

/-- What a row that is committed as a head comes to, with its vectors and its changelog. -/
def afterCommit (env : Env V) (row : ToolRow) (toolChangelogs : List Changelog)
    (summaryL1 summaryL2 changelog : String) (s : StoreState V) : StoreState V :=
  match commitHead s.tools row with
  | none => s
  | some tools =>
      logged row.toolId changelog
        (embedToolRow env (rowIdOf tools row.toolId) row.toolId row.toolName summaryL1 summaryL2
          { s with tools, toolChangelogs })

theorem endsIn_commitRow (integrity : Integrity Anything s) {task : Task V} {row : ToolRow}
    (isHead : row.isHead = true) {toolChangelogs : List Changelog}
    {summaryL1 summaryL2 changelog : String} {final : StoreState V}
    (commits : taskSegment env s task =
      commitRow row toolChangelogs summaryL1 summaryL2 changelog s)
    (isFinal : final = afterCommit env row toolChangelogs summaryL1 summaryL2 changelog s) :
    EndsIn segment env ⟨s, s⟩ task ⟨final, final⟩ := by
  unfold commitRow at commits
  unfold afterCommit at isFinal
  cases committed : commitHead s.tools row with
  | none =>
      rw [committed] at commits isFinal
      subst isFinal
      exact .last (by rw [segment, commits]; rfl)
  | some tools =>
      rw [committed] at commits isFinal
      subst isFinal
      have goesOn : segment ⟨s, s⟩ task env =
          (⟨{ s with tools, toolChangelogs }, { s with tools, toolChangelogs }⟩,
            some (.embed .l1
              ⟨rowIdOf tools row.toolId, row.toolId, row.toolName, summaryL1, summaryL2⟩
              changelog)) := by
        rw [segment, commits]
        rfl
      refine .next goesOn (endsIn_embed ?_ ?_ rfl)
      · refine ⟨stored s.tools row, ?_, rfl⟩
        change _ ∈ tools.rows
        rw [(commitHead_rows isHead committed).1]
        exact List.mem_append_right _ (List.mem_singleton_self _)
      · intro level entry member
        have given := integrity.vectors.given level entry (by cases level <;> exact member)
        rw [rowIdOf_commitHead isHead committed]
        exact Nat.ne_of_lt (Nat.lt_succ_of_le given)

theorem endsIn_createVersion (integrity : Integrity Anything s) (toolName : String)
    (newDefinition : ToolDefinition) (changelog bump branch changeKind : String)
    {final : StoreState V}
    (isFinal : final =
      (createVersion env toolName newDefinition changelog bump branch changeKind s).2) :
    EndsIn segment env ⟨s, s⟩
      (.call (.base (.createVersion toolName newDefinition changelog bump branch changeKind)))
      ⟨final, final⟩ := by
  unfold createVersion at isFinal
  cases top : newestOn s.tools.rows toolName branch with
  | none =>
      rw [top] at isFinal
      subst isFinal
      refine .last ?_
      simp only [segment, taskSegment, callSegment, baseSegment, createVersionSegment, top]
      rfl
  | some old =>
      rw [top] at isFinal
      refine endsIn_commitRow integrity rfl
        (by simp only [taskSegment, callSegment, baseSegment, createVersionSegment, top]; rfl) ?_
      rw [isFinal, afterCommit]
      dsimp only
      cases commitHead s.tools (versionRow env toolName newDefinition bump branch changeKind old)
        with
      | none => rfl
      | some tools =>
          dsimp only [logged]
          split <;> rfl

theorem endsIn_promote (integrity : Integrity Anything s) (toolName evidence : String)
    {final : StoreState V} (isFinal : final = (promoteToStable env toolName evidence s).2) :
    EndsIn segment env ⟨s, s⟩ (.call (.base (.promoteToStable toolName evidence)))
      ⟨final, final⟩ := by
  unfold promoteToStable at isFinal
  split at isFinal
  · rename_i absent
    subst isFinal
    refine .last ?_
    simp only [segment, taskSegment, callSegment, baseSegment, absent]
    rfl
  · rename_i head found
    split at isFinal
    · rename_i stable
      subst isFinal
      refine .last ?_
      simp only [segment, taskSegment, callSegment, baseSegment, found, stable]
      rfl
    · rename_i candidate
      have goesOn : segment ⟨s, s⟩ (.call (.base (.promoteToStable toolName evidence))) env =
          (⟨s, s⟩, some (.promote toolName evidence (rowToEntry s head))) := by
        simp only [segment, taskSegment, callSegment, baseSegment, found, candidate]
        rfl
      refine .next goesOn ?_
      split at isFinal
      · rename_i absent
        subst isFinal
        refine .last ?_
        simp only [segment, taskSegment, promoteSegment, absent]
        rfl
      · rename_i parent flagged
        dsimp only at isFinal
        split at isFinal
        · rename_i taken
          subst isFinal
          refine .last ?_
          simp only [segment, taskSegment, promoteSegment, flagged, taken]
          rfl
        · rename_i isFree
          refine endsIn_commitRow integrity rfl
            (by simp only [taskSegment, promoteSegment, flagged, isFree]; rfl) ?_
          rw [isFinal, afterCommit]
          cases commitHead s.tools (promotedRow env toolName (rowToEntry s head) parent) with
          | none => rfl
          | some tools => rfl

theorem endsIn_createBranch (integrity : Integrity Anything s)
    (toolName branchName fromVersion : String) {final : StoreState V}
    (isFinal : final = (createBranch env toolName branchName fromVersion s).2) :
    EndsIn segment env ⟨s, s⟩ (.call (.base (.createBranch toolName branchName fromVersion)))
      ⟨final, final⟩ := by
  have starts {result : Ending V × Option (Task V)}
      (is : createBranchSegment env toolName branchName fromVersion s = result) :
      taskSegment env s (.call (.base (.createBranch toolName branchName fromVersion))) = result :=
    is
  unfold createBranch at isFinal
  unfold createBranchSegment at starts
  have reads (is : taskSegment env s
        (.call (.base (.createBranch toolName branchName fromVersion))) = (.leave s, none))
      (same : final = s) : EndsIn segment env ⟨s, s⟩
        (.call (.base (.createBranch toolName branchName fromVersion))) ⟨final, final⟩ := by
    subst same
    exact .last (by rw [segment, is]; rfl)
  by_cases main : branchName = "main"
  · rw [if_pos main] at isFinal
    exact reads (starts (if_pos main)) isFinal
  · rw [if_neg main] at isFinal starts
    by_cases separator : '/' ∈ branchName.toList ∨ '@' ∈ branchName.toList
    · rw [if_pos separator] at isFinal
      exact reads (starts (if_pos separator)) isFinal
    · rw [if_neg separator] at isFinal starts
      cases fork : forkPoint s.tools.rows toolName fromVersion with
      | none =>
          rw [fork] at isFinal starts
          exact reads (starts rfl) isFinal
      | some base =>
          rw [fork] at isFinal starts
          dsimp only at isFinal starts
          by_cases taken :
              (rowById s.tools.rows (branchRow env toolName branchName base).toolId).isSome = true
          · rw [if_pos taken] at isFinal
            exact reads (starts (if_pos taken)) isFinal
          · rw [if_neg taken] at isFinal starts
            refine endsIn_commitRow integrity rfl (starts rfl) ?_
            rw [isFinal, afterCommit]
            have name : (branchRow env toolName branchName base).toolName = toolName :=
              (forkPoint_mem fork).2.1
            rw [name]
            cases commitHead s.tools (branchRow env toolName branchName base) with
            | none => rfl
            | some tools => rfl

/-- A call that nobody interrupts does what its operation does as a whole. -/
theorem endsIn_step (env : Env V) (integrity : Integrity Anything s) (call : Call V) :
    EndsIn segment env ⟨s, s⟩ (.call (.base call)) ⟨step s (env, call), step s (env, call)⟩ := by
  cases call with
  | upsertTool entry =>
      refine .last ?_
      rcases upsertTool_cases env entry s with ⟨_, raises⟩ | ⟨_, next, returns, _⟩
      · simp only [segment, taskSegment, callSegment, baseSegment, step, raises]
        rfl
      · simp only [segment, taskSegment, callSegment, baseSegment, step, returns]
        rfl
  | createVersion => exact endsIn_createVersion integrity _ _ _ _ _ _ rfl
  | createBranch => exact endsIn_createBranch integrity _ _ _ rfl
  | mergeBranch toolName source target =>
      dsimp only [step]
      unfold mergeBranch
      cases inputs : mergeInputs s.tools.rows toolName source target with
      | error e =>
          refine .last ?_
          simp only [segment, taskSegment, callSegment, baseSegment, inputs]
          rfl
      | ok found =>
          obtain ⟨base, ours, theirs⟩ := found
          dsimp only
          cases merged : mergedDefinition toolName base ours theirs with
          | error e =>
              refine .last ?_
              simp only [segment, taskSegment, callSegment, baseSegment, inputs, merged]
              rfl
          | ok definition =>
              refine .next ?_ (endsIn_createVersion integrity _ _ _ _ _ _ rfl)
              simp only [segment, taskSegment, callSegment, baseSegment, inputs, merged]
              rfl
  | rollback toolName toVersion =>
      dsimp only [step]
      unfold rollback
      cases found : getTool s.tools.rows toolName toVersion with
      | none =>
          refine .last ?_
          simp only [segment, taskSegment, callSegment, baseSegment, found]
          rfl
      | some target =>
          refine .next ?_ (endsIn_createVersion integrity _ _ _ _ _ _ rfl)
          simp only [segment, taskSegment, callSegment, baseSegment, found]
          rfl
  | promoteToStable => exact endsIn_promote integrity _ _ rfl
  | markExternal toolName =>
      dsimp only [step]
      unfold markExternal
      cases found : lineageHead s.tools.rows toolName with
      | none =>
          refine .last ?_
          simp only [segment, taskSegment, callSegment, baseSegment, found]
          rfl
      | some head =>
          have reads : segment ⟨s, s⟩ (.call (.base (.markExternal toolName))) env =
              (⟨s, s⟩, some (.mark toolName head.version)) := by
            simp only [segment, taskSegment, callSegment, baseSegment, found]
            rfl
          refine .next reads ?_
          dsimp only
          by_cases stable : isStable head.version = true
          · rw [if_pos stable]
            refine .last ?_
            simp only [segment, taskSegment, stable]
            rfl
          · rw [if_neg stable]
            refine .next ?_ (endsIn_promote (integrity.tools (setExternal_written toolName s.tools))
              _ _ rfl)
            simp only [segment, taskSegment, stable]
            rfl
  | deleteTool toolName version =>
      refine .last ?_
      rcases deleteTool_result toolName version s with deletes | nothing
      · simp only [segment, taskSegment, callSegment, baseSegment, step]
        rw [deletes]
        rfl
      · simp only [segment, taskSegment, callSegment, baseSegment, step, nothing]
        rfl
  | addTag toolName tag =>
      refine .last ?_
      dsimp only [step]
      cases newest : newestOfTool s.tools.rows toolName with
      | none =>
          simp only [segment, taskSegment, callSegment, baseSegment, addTag, newest]
          rfl
      | some row =>
          simp only [segment, taskSegment, callSegment, baseSegment, newest]
          rfl

theorem SoundPool.run {pool : Pool (Connection V) (Task V)} (sound : SoundPool pool)
    (turns : List (Turn (StoreCall V) (Env V))) : SoundPool (run callTurn pool turns) := by
  induction turns generalizing pool with
  | nil => exact sound
  | cons next rest ih => exact ih (soundPool_turn sound next)

theorem Integrity.step (integrity : Integrity Anything s) (action : Env V × Call V) :
    Integrity Anything (step s action) := by
  obtain ⟨env, call⟩ := action
  have start : SoundPool (⟨⟨s, s⟩, [.call (.base call)]⟩ : Pool (Connection V) (Task V)) := by
    refine ⟨⟨integrity, integrity, rfl⟩, fun task member => ?_⟩
    rw [List.mem_singleton.mp member]
    cases call <;> first | exact fun _ _ => trivial | trivial
  obtain ⟨count, ends⟩ := (endsIn_step env integrity call).run Task.call
  have final := start.run (List.replicate count (.resume 0 env))
  rw [ends] at final
  exact final.1.now

end Uninterrupted

end YouMi.Mcp.ToolStore

import YouMi.Mcp.HotTools

/-!
# Which tools are recycled

A tool is moved from hot to warm when it has idled, which is told by its last use, or by
the number of the turn where it was never used.  Its promotion is not recorded.  The
history beside the context counts the turns and knows when each tool was made hot.
-/

namespace YouMi.Mcp

open YouMi.Library YouMi.Mcp.ToolStore

/-- Everything that is called on a context; a use is recorded in the turn in which it is. -/
inductive ContextEvent (V : Type) where
  | initTools (essentialNames : List String) (hotNames : Option (List String))
  | registerTool (toolName : String) (tier : ToolContextTier) (essential : Bool)
  | promote (toolName : String)
  | demote (toolName : String)
  | recordUsage (toolName : String)
  | advanceTurn
  | recycle (idleThreshold : Option Int)
  | reset
  | restock (vault : ToolVault V)

structure LoadHistory (V : Type) where
  context : AgentToolContext V
  /-- The turns so far, which a reset does not count anew. -/
  clock : Int := 0
  /-- When a tool was last made hot. -/
  loadedAt : String → Option Int := fun _ => none
  usedAt : String → Option Int := fun _ => none

variable {V : Type}

namespace AgentToolContext

def handle (context : AgentToolContext V) : ContextEvent V → AgentToolContext V
  | .initTools essentialNames hotNames => context.initTools essentialNames hotNames
  | .registerTool toolName tier essential => context.registerTool toolName tier essential
  | .promote toolName => (context.promote toolName).2
  | .demote toolName => (context.demote toolName).2
  | .recordUsage toolName => context.recordUsage toolName
  | .advanceTurn => context.advanceTurn
  | .recycle idleThreshold => (context.recycle idleThreshold).2
  | .reset => context.reset
  | .restock vault => { context with vault }

/-- The event makes the tool hot, or registers it as hot. -/
def Loads (context : AgentToolContext V) (event : ContextEvent V) (name : String) : Prop :=
  match event with
  | .initTools essentialNames hotNames => name ∈ context.vault.entries.keys ∧
      (name ∈ hotNames.getD context.vault.entries.keys ∨ name ∈ essentialNames)
  | .registerTool toolName tier _ => name = toolName ∧ tier = .hot
  | .promote toolName => name = toolName ∧
      (context.vault.entries.lookup toolName).isSome = true ∧ context.getTier toolName ≠ .hot
  | _ => False

instance (context : AgentToolContext V) (event : ContextEvent V) (name : String) :
    Decidable (context.Loads event name) := by
  cases event <;> unfold Loads <;> infer_instance

/-- The threshold with which the event recycles, if it does. -/
def recyclesWith (context : AgentToolContext V) : ContextEvent V → Option Int
  | .recycle idleThreshold => some (idleThreshold.getD context.recycleAfterTurns)
  | .promote toolName =>
      if (context.vault.entries.lookup toolName).isSome ∧ context.getTier toolName ≠ .hot ∧
          context.maxHotTools ≤ context.hotCount then some 1
      else none
  | _ => none

end AgentToolContext

namespace LoadHistory

def step (history : LoadHistory V) (event : ContextEvent V) : LoadHistory V where
  context := history.context.handle event
  clock := match event with
    | .advanceTurn => history.clock + 1
    | _ => history.clock
  loadedAt name :=
    if history.context.Loads event name then some history.clock else history.loadedAt name
  usedAt name := match event with
    | .recordUsage toolName => if name = toolName then some history.clock else history.usedAt name
    | _ => history.usedAt name

/-- A tool that is recycled was loaded and used at least as many turns ago as the threshold. -/
def RecyclesIdle (history : LoadHistory V) (event : ContextEvent V) : Prop :=
  ∀ threshold, history.context.recyclesWith event = some threshold →
    ∀ name, history.context.getTier name = .hot →
      (history.context.handle event).getTier name = .warm →
        (∀ time, history.loadedAt name = some time → threshold ≤ history.clock - time) ∧
          ∀ time, history.usedAt name = some time → threshold ≤ history.clock - time

/--
A hot tool that was loaded fewer turns ago than the threshold does not idle: it is
essential, was used fewer turns ago, or was never used in too few turns altogether.
-/
def SparesLoaded (history : LoadHistory V) (event : ContextEvent V) : Prop :=
  ∀ threshold, history.context.recyclesWith event = some threshold →
    ∀ name entry, history.context.contexts.lookup name = some entry →
      ∀ time, history.loadedAt name = some time → history.clock - time < threshold →
        entry.idles history.context.currentTurn threshold = false

/-- What the history knows of an entry that may be recycled. -/
structure Follows (history : LoadHistory V) (name : String) (entry : ContextEntry) : Prop where
  used : 0 ≤ entry.lastUsedTurn → history.usedAt name =
    some (history.clock - history.context.currentTurn + entry.lastUsedTurn)
  /-- A use before the entry was made anew is no later than the load. -/
  unused : entry.lastUsedTurn < 0 → entry.tier = .hot → ∀ time, history.usedAt name = some time →
    ∃ loaded, history.loadedAt name = some loaded ∧ time ≤ loaded

structure Tracked (history : LoadHistory V) : Prop where
  turn : 0 ≤ history.context.currentTurn
  past : ∀ name time, history.usedAt name = some time → time ≤ history.clock
  follows : ∀ name entry, history.context.contexts.lookup name = some entry →
    entry.essential = false → history.Follows name entry

end LoadHistory

/-! ## Entries after a call -/

namespace AgentToolContext

variable (context : AgentToolContext V) {name toolName : String}

theorem lookup_enter_of_ne (ne : name ≠ toolName) :
    (context.enter toolName).contexts.lookup name = context.contexts.lookup name := by
  unfold enter
  split
  · rfl
  · exact OrderedDict.lookup_assign_ne ne

theorem lookup_setTier_of_ne (ne : name ≠ toolName) (tier : ToolContextTier) :
    (context.setTier toolName tier).contexts.lookup name = context.contexts.lookup name := by
  unfold setTier
  split
  · rfl
  · exact OrderedDict.lookup_assign_ne ne

theorem lookup_recycle (idleThreshold : Option Int) (name : String) :
    (context.recycle idleThreshold).2.contexts.lookup name =
      (context.contexts.lookup name).map fun entry => entry.recycled context.currentTurn
        (idleThreshold.getD context.recycleAfterTurns) :=
  OrderedDict.lookup_map_values context.contexts
    (fun entry => entry.recycled context.currentTurn _) name

/-- The entry is recycled if room must be made. -/
def roomed (entry : ContextEntry) : ContextEntry :=
  if context.maxHotTools ≤ context.hotCount then entry.recycled context.currentTurn 1 else entry

theorem lookup_makeRoom (name : String) :
    context.makeRoom.contexts.lookup name = (context.contexts.lookup name).map context.roomed := by
  unfold makeRoom roomed
  split
  · exact context.lookup_recycle (some 1) name
  · simp

/-- What a promotion does to the other entries. -/
theorem lookup_promote_of_ne (known : (context.vault.entries.lookup toolName).isSome = true)
    (cool : context.getTier toolName ≠ .hot) (ne : name ≠ toolName) :
    (context.promote toolName).2.contexts.lookup name =
      (context.contexts.lookup name).map context.roomed := by
  obtain ⟨sameMax, sameTurn⟩ := enter_constants context toolName
  rw [promote_of_cool known cool]
  dsimp only
  rw [lookup_setTier_of_ne _ ne, lookup_makeRoom, lookup_enter_of_ne _ ne]
  unfold roomed
  rw [sameMax, sameTurn, hotCount_enter]

/-- The entry of a promoted tool is the one it had, or a new one, and hot. -/
theorem lookup_promote_self (known : (context.vault.entries.lookup toolName).isSome = true)
    (cool : context.getTier toolName ≠ .hot) :
    (context.promote toolName).2.contexts.lookup toolName =
      some { (context.contexts.lookup toolName).getD { toolName } with tier := .hot } := by
  have entered : (context.enter toolName).contexts.lookup toolName =
      some ((context.contexts.lookup toolName).getD { toolName }) := by
    unfold enter
    split
    · rename_i present
      obtain ⟨entry, found⟩ := Option.isSome_iff_exists.mp present
      rw [found, Option.getD_some]
    · rename_i absent
      rw [OrderedDict.lookup_assign_self, Option.not_isSome_iff_eq_none.mp absent,
        Option.getD_none]
  have isCool : ((context.contexts.lookup toolName).getD { toolName }).tier ≠ .hot := by
    rw [← getTier_enter, getTier, entered] at cool
    exact cool
  have roomy := lookup_makeRoom_of_cool (context.enter toolName) entered isCool
  rw [promote_of_cool known cool, setTier, roomy]
  exact OrderedDict.lookup_assign_self

/-- A promotion of a hot tool changes nothing. -/
theorem promote_of_present_hot (hot : context.getTier toolName = .hot) :
    (context.promote toolName).2 = context := by
  by_cases known : (context.vault.entries.lookup toolName).isSome = true
  · have present : (context.contexts.lookup toolName).isSome = true := by
      unfold getTier at hot
      split at hot
      · cases hot
      · rename_i entry found
        rw [found]
        rfl
    rw [promote_of_hot known hot, enter, if_pos present]
  · exact promote_of_unknown (Option.not_isSome_iff_eq_none.mp known)

theorem lookup_demote (toolName name : String) :
    (context.demote toolName).2.contexts.lookup name = context.contexts.lookup name ∨
      ∃ entry, context.contexts.lookup name = some entry ∧
        (context.demote toolName).2.contexts.lookup name = some { entry with tier := .warm } := by
  unfold demote
  split
  · exact .inl rfl
  · rename_i entry found
    split
    · exact .inl rfl
    · by_cases same : name = toolName
      · subst same
        refine .inr ⟨entry, found, ?_⟩
        rw [setTier, found]
        exact OrderedDict.lookup_assign_self
      · exact .inl (lookup_setTier_of_ne _ same _)

/-- What a new registration of the tools of the vault leaves. -/
theorem lookup_initTools (essentialNames : List String) (hotNames : Option (List String))
    (name : String) :
    (context.initTools essentialNames hotNames).contexts.lookup name =
      if name ∈ context.vault.entries.keys then
        some
          { toolName := name
            tier := if name ∈ hotNames.getD context.vault.entries.keys ∨ name ∈ essentialNames
              then .hot else .cold
            essential := name ∈ essentialNames }
      else context.contexts.lookup name := by
  unfold initTools
  dsimp only
  generalize hotNames.getD context.vault.entries.keys = hot
  generalize context.vault.entries.keys = names
  induction names generalizing context with
  | nil => rfl
  | cons first rest ih =>
      rw [List.foldl_cons, ih, registerTool]
      dsimp only
      rw [OrderedDict.lookup_assign]
      by_cases later : name ∈ rest
      · rw [if_pos later, if_pos (List.mem_cons_of_mem _ later)]
      · rw [if_neg later]
        by_cases here : name = first
        · subst here
          rw [if_pos rfl, if_pos List.mem_cons_self]
        · rw [if_neg here, if_neg fun member => (List.mem_cons.mp member).elim here later]

theorem currentTurn_initTools (essentialNames : List String) (hotNames : Option (List String)) :
    (context.initTools essentialNames hotNames).currentTurn = context.currentTurn := by
  unfold initTools
  dsimp only
  generalize hotNames.getD context.vault.entries.keys = hot
  generalize context.vault.entries.keys = names
  induction names generalizing context with
  | nil => rfl
  | cons first rest ih => exact ih _

theorem currentTurn_promote (toolName : String) :
    (context.promote toolName).2.currentTurn = context.currentTurn := by
  have roomy (c : AgentToolContext V) : c.makeRoom.currentTurn = c.currentTurn := by
    unfold makeRoom
    split <;> rfl
  have heated (c : AgentToolContext V) : (c.setTier toolName .hot).currentTurn = c.currentTurn := by
    unfold setTier
    split <;> rfl
  have entered := (enter_constants context toolName).2
  unfold promote
  split
  · rfl
  · dsimp only
    split
    · exact entered
    · rw [heated, roomy, entered]

/-- No call changes the turn but the two that are there for it. -/
theorem currentTurn_handle (event : ContextEvent V) :
    (context.handle event).currentTurn =
      match event with
      | .advanceTurn => context.currentTurn + 1
      | .reset => 0
      | _ => context.currentTurn := by
  cases event with
  | initTools essentialNames hotNames => exact context.currentTurn_initTools essentialNames hotNames
  | promote toolName => exact context.currentTurn_promote toolName
  | demote toolName =>
      change (context.demote toolName).2.currentTurn = _
      unfold demote
      split
      · rfl
      · split
        · rfl
        · unfold setTier
          split <;> rfl
  | recordUsage toolName =>
      change (context.recordUsage toolName).currentTurn = _
      unfold recordUsage
      split <;> rfl
  | _ => rfl

end AgentToolContext

/-! ## The history follows the context -/

namespace LoadHistory

variable {history next : LoadHistory V} {name : String} {entry changed : ContextEntry}

/-- An entry that is used as before, and hot only if it was, is followed as before. -/
theorem Follows.keep (follows : history.Follows name entry)
    (used : next.usedAt name = history.usedAt name)
    (loaded : next.loadedAt name = history.loadedAt name)
    (offset : next.clock - next.context.currentTurn =
      history.clock - history.context.currentTurn)
    (sameUse : changed.lastUsedTurn = entry.lastUsedTurn)
    (cooler : changed.tier = .hot → entry.tier = .hot) : next.Follows name changed := by
  constructor
  · rw [used, offset, sameUse]
    exact follows.used
  · rw [used, loaded, sameUse]
    exact fun unused hot => follows.unused unused (cooler hot)

/-- An entry that is not used yet is followed if it is not hot or was loaded last. -/
theorem follows_of_unused (unused : entry.lastUsedTurn = -1)
    (loaded : entry.tier = .hot → ∃ time, history.loadedAt name = some time ∧
      ∀ use, history.usedAt name = some use → use ≤ time) : history.Follows name entry where
  used nonneg := absurd (unused ▸ nonneg) (by decide)
  unused _ hot use isUse := by
    obtain ⟨time, isLoad, last⟩ := loaded hot
    exact ⟨time, isLoad, last use isUse⟩

theorem recycled_lastUsedTurn (entry : ContextEntry) (currentTurn threshold : Int) :
    (entry.recycled currentTurn threshold).lastUsedTurn = entry.lastUsedTurn ∧
      (entry.recycled currentTurn threshold).essential = entry.essential ∧
      ((entry.recycled currentTurn threshold).tier = .hot → entry.tier = .hot) := by
  unfold ContextEntry.recycled
  split
  · exact ⟨rfl, rfl, fun warm => nomatch warm⟩
  · exact ⟨rfl, rfl, id⟩

theorem roomed_lastUsedTurn (context : AgentToolContext V) (entry : ContextEntry) :
    (context.roomed entry).lastUsedTurn = entry.lastUsedTurn ∧
      (context.roomed entry).essential = entry.essential ∧
      ((context.roomed entry).tier = .hot → entry.tier = .hot) := by
  unfold AgentToolContext.roomed
  split
  · exact recycled_lastUsedTurn entry _ _
  · exact ⟨rfl, rfl, id⟩

theorem usedAt_step (history : LoadHistory V) {event : ContextEvent V}
    (notUsed : event ≠ .recordUsage name) :
    (history.step event).usedAt name = history.usedAt name := by
  cases event with
  | recordUsage toolName => exact if_neg fun same => notUsed (by rw [same])
  | _ => rfl

theorem loadedAt_step_of_loads {event : ContextEvent V}
    (loads : history.context.Loads event name) :
    (history.step event).loadedAt name = some history.clock := if_pos loads

theorem loadedAt_step_of_not {event : ContextEvent V}
    (stays : ¬ history.context.Loads event name) :
    (history.step event).loadedAt name = history.loadedAt name := if_neg stays

/-- An entry that the event neither loads nor uses. -/
theorem Tracked.keep (tracked : history.Tracked) {event : ContextEvent V}
    (was : history.context.contexts.lookup name = some entry) (optional : entry.essential = false)
    (stays : ¬ history.context.Loads event name) (notUsed : event ≠ .recordUsage name)
    (notReset : event ≠ .reset) (sameUse : changed.lastUsedTurn = entry.lastUsedTurn)
    (cooler : changed.tier = .hot → entry.tier = .hot) :
    (history.step event).Follows name changed := by
  refine (tracked.follows name entry was optional).keep (usedAt_step history notUsed)
    (loadedAt_step_of_not stays) ?_ sameUse cooler
  change (history.step event).clock - (history.context.handle event).currentTurn = _
  rw [AgentToolContext.currentTurn_handle]
  cases event with
  | advanceTurn =>
      change history.clock + 1 - (history.context.currentTurn + 1) = _
      omega
  | reset => exact absurd rfl notReset
  | _ => rfl

/-- An entry that has just been made, and is hot only if the event loads it. -/
theorem Tracked.fresh (tracked : history.Tracked) {event : ContextEvent V}
    (notUsed : event ≠ .recordUsage name) (unused : changed.lastUsedTurn = -1)
    (loads : changed.tier = .hot → history.context.Loads event name) :
    (history.step event).Follows name changed := by
  refine follows_of_unused unused fun hot => ⟨_, loadedAt_step_of_loads (loads hot), ?_⟩
  rw [usedAt_step history notUsed]
  exact tracked.past name

theorem follows_promote (tracked : history.Tracked) {toolName : String}
    (found : (history.context.promote toolName).2.contexts.lookup name = some changed)
    (optional : changed.essential = false) :
    (history.step (.promote toolName)).Follows name changed := by
  have notUsed : (.promote toolName : ContextEvent V) ≠ .recordUsage name := nofun
  by_cases hot : history.context.getTier toolName = .hot
  · rw [AgentToolContext.promote_of_present_hot _ hot] at found
    exact tracked.keep found optional (fun loads => loads.2.2 hot) notUsed nofun rfl id
  by_cases known : (history.context.vault.entries.lookup toolName).isSome = true
  · by_cases same : name = toolName
    · subst same
      have loads : history.context.Loads (.promote name) name := ⟨rfl, known, hot⟩
      rw [AgentToolContext.lookup_promote_self _ known hot] at found
      cases was : history.context.contexts.lookup name with
      | none =>
          rw [was] at found
          cases found
          exact tracked.fresh notUsed rfl fun _ => loads
      | some entry =>
          rw [was] at found
          cases found
          -- Used as before, and loaded now.
          have before := tracked.follows name entry was optional
          constructor
          · rw [usedAt_step history notUsed]
            change 0 ≤ entry.lastUsedTurn → history.usedAt name = some (history.clock -
              (history.context.promote name).2.currentTurn + entry.lastUsedTurn)
            rw [AgentToolContext.currentTurn_promote]
            exact before.used
          · intro _ _ time isUse
            rw [usedAt_step history notUsed] at isUse
            exact ⟨_, loadedAt_step_of_loads loads, tracked.past name time isUse⟩
    · rw [AgentToolContext.lookup_promote_of_ne _ known hot same] at found
      obtain ⟨entry, was, rfl⟩ := Option.map_eq_some_iff.mp found
      obtain ⟨sameUse, sameKind, cooler⟩ := roomed_lastUsedTurn history.context entry
      exact tracked.keep was (sameKind ▸ optional) (fun loads => same loads.1) notUsed nofun sameUse
        cooler
  · rw [AgentToolContext.promote_of_unknown (Option.not_isSome_iff_eq_none.mp known)] at found
    exact tracked.keep found optional (fun loads => known loads.2.1) notUsed nofun rfl id

theorem follows_recordUsage (tracked : history.Tracked) {toolName : String}
    (found : (history.context.recordUsage toolName).contexts.lookup name = some changed)
    (optional : changed.essential = false) :
    (history.step (.recordUsage toolName)).Follows name changed := by
  by_cases same : name = toolName
  · subst same
    have now : (history.step (.recordUsage name)).usedAt name = some history.clock := if_pos rfl
    have turn := tracked.turn
    unfold AgentToolContext.recordUsage at found
    split at found
    · rename_i absent
      rw [absent] at found
      cases found
    · rename_i entry was
      dsimp only at found
      rw [OrderedDict.lookup_assign_self] at found
      cases found
      refine ⟨fun _ => ?_, fun unused => absurd unused (not_lt.mpr turn)⟩
      rw [now]
      change some history.clock = some (history.clock -
        (history.context.recordUsage name).currentTurn + history.context.currentTurn)
      have still := history.context.currentTurn_handle (.recordUsage name)
      change (history.context.recordUsage name).currentTurn = _ at still
      rw [still, Int.sub_add_cancel]
  · have was : history.context.contexts.lookup name = some changed := by
      unfold AgentToolContext.recordUsage at found
      split at found
      · exact found
      · exact (OrderedDict.lookup_assign_ne same).symm.trans found
    refine tracked.keep was optional id ?_ nofun rfl id
    rintro ⟨⟩
    exact same rfl

/-- After an event, each entry that may be recycled is followed. -/
theorem follows_step (tracked : history.Tracked) (event : ContextEvent V)
    (found : (history.context.handle event).contexts.lookup name = some changed)
    (optional : changed.essential = false) : (history.step event).Follows name changed := by
  cases event with
  | initTools essentialNames hotNames =>
      change (history.context.initTools essentialNames hotNames).contexts.lookup name = _ at found
      rw [AgentToolContext.lookup_initTools] at found
      split at found
      · rename_i stocked
        cases found
        refine tracked.fresh nofun rfl fun hot => ⟨stocked, ?_⟩
        by_contra cold
        exact absurd ((if_neg cold).symm.trans hot) (by decide)
      · rename_i missing
        exact tracked.keep found optional (fun loads => missing loads.1) nofun nofun rfl id
  | registerTool toolName tier essential =>
      change (history.context.contexts.assign toolName _).lookup name = some changed at found
      rw [OrderedDict.lookup_assign] at found
      split at found
      · rename_i same
        cases found
        exact tracked.fresh nofun rfl fun hot => ⟨same, hot⟩
      · rename_i other
        exact tracked.keep found optional (fun loads => other loads.1) nofun nofun rfl id
  | promote toolName => exact follows_promote tracked found optional
  | demote toolName =>
      rcases history.context.lookup_demote toolName name with same | ⟨entry, was, cooled⟩
      · exact tracked.keep (same.symm.trans found) optional id nofun nofun rfl id
      · cases cooled.symm.trans found
        exact tracked.keep was optional id nofun nofun rfl nofun
  | recordUsage toolName => exact follows_recordUsage tracked found optional
  | advanceTurn => exact tracked.keep found optional id nofun nofun rfl id
  | recycle idleThreshold =>
      obtain ⟨entry, was, rfl⟩ := Option.map_eq_some_iff.mp
        ((history.context.lookup_recycle idleThreshold name).symm.trans found)
      obtain ⟨sameUse, sameKind, cooler⟩ := recycled_lastUsedTurn entry
        history.context.currentTurn (idleThreshold.getD history.context.recycleAfterTurns)
      exact tracked.keep was (sameKind ▸ optional) id nofun nofun sameUse cooler
  | reset =>
      obtain ⟨entry, was, rfl⟩ := Option.map_eq_some_iff.mp
        ((OrderedDict.lookup_map_values history.context.contexts ContextEntry.reset name).symm.trans
          found)
      unfold ContextEntry.reset at optional ⊢
      split at optional
      · rename_i essential
        exact absurd (essential.symm.trans optional) (by decide)
      · rename_i ordinary
        rw [if_neg ordinary]
        exact tracked.fresh nofun rfl nofun
  | restock vault => exact tracked.keep found optional id nofun nofun rfl id

theorem tracked_step (history : LoadHistory V) (event : ContextEvent V)
    (tracked : history.Tracked) : (history.step event).Tracked where
  turn := by
    have turn := tracked.turn
    change 0 ≤ (history.context.handle event).currentTurn
    rw [AgentToolContext.currentTurn_handle]
    cases event with
    | advanceTurn => exact Int.add_nonneg turn (by decide)
    | reset => exact le_rfl
    | _ => exact turn
  past name time isUse := by
    have grows : history.clock ≤ (history.step event).clock := by
      cases event with
      | advanceTurn => exact Int.le_add_of_nonneg_right (by decide)
      | _ => exact le_rfl
    by_cases uses : event = .recordUsage name
    · subst uses
      have now : (history.step (.recordUsage name)).usedAt name = some history.clock := if_pos rfl
      rw [← Option.some.inj (now.symm.trans isUse)]
      exact grows
    · rw [usedAt_step history uses] at isUse
      exact (tracked.past name time isUse).trans grows
  follows name entry found optional := follows_step tracked event found optional

/-! ## What is recycled -/

/-- Recycling changes the entries of hot tools by nothing else. -/
theorem lookup_handle_of_recycles {context : AgentToolContext V} {event : ContextEvent V}
    {threshold : Int} (recycles : context.recyclesWith event = some threshold)
    (found : context.contexts.lookup name = some entry) (hot : entry.tier = .hot) :
    (context.handle event).contexts.lookup name =
      some (entry.recycled context.currentTurn threshold) := by
  cases event with
  | recycle idleThreshold =>
      cases recycles
      exact (context.lookup_recycle idleThreshold name).trans (by rw [found]; rfl)
  | promote toolName =>
      unfold AgentToolContext.recyclesWith at recycles
      dsimp only at recycles
      split at recycles
      · rename_i full
        obtain ⟨known, cool, full⟩ := full
        cases recycles
        have ne : name ≠ toolName := by
          rintro rfl
          refine cool ?_
          rw [AgentToolContext.getTier, found]
          exact hot
        refine (context.lookup_promote_of_ne known cool ne).trans ?_
        rw [found, Option.map_some, AgentToolContext.roomed, if_pos full]
      · cases recycles
  | _ => cases recycles

theorem idles_iff {currentTurn threshold : Int} :
    entry.idles currentTurn threshold = true ↔
      entry.tier = .hot ∧ entry.essential = false ∧
        (entry.lastUsedTurn < 0 ∧ threshold ≤ currentTurn ∨
          0 ≤ entry.lastUsedTurn ∧ threshold ≤ currentTurn - entry.lastUsedTurn) := by
  unfold ContextEntry.idles
  rw [Bool.and_eq_true, Bool.and_eq_true, decide_eq_true_eq, Bool.not_eq_true', and_assoc]
  refine and_congr_right fun _ => and_congr_right fun _ => ?_
  split
  · rename_i unused
    simp [unused, not_le.mpr unused]
  · rename_i used
    simp [used, not_lt.mp used]

/-- What is recycled was hot and idled. -/
theorem idles_of_recycled {currentTurn threshold : Int} (hot : entry.tier = .hot)
    (warm : (entry.recycled currentTurn threshold).tier = .warm) :
    entry.idles currentTurn threshold = true := by
  unfold ContextEntry.recycled at warm
  split at warm
  · assumption
  · cases hot.symm.trans warm

theorem recyclesIdle_iff (tracked : history.Tracked) (event : ContextEvent V) :
    history.RecyclesIdle event ↔ history.SparesLoaded event := by
  constructor
  · intro idle threshold recycles name entry found time isLoad recent
    by_contra evicted
    rw [Bool.not_eq_false] at evicted
    have hot := AgentToolContext.hot_of_idles evicted
    have wasHot : history.context.getTier name = .hot := by
      rw [AgentToolContext.getTier, found]
      exact hot
    have isWarm : (history.context.handle event).getTier name = .warm := by
      rw [AgentToolContext.getTier, lookup_handle_of_recycles recycles found hot]
      dsimp only
      rw [ContextEntry.recycled, if_pos evicted]
    exact absurd ((idle threshold recycles name wasHot isWarm).1 time isLoad) (not_le.mpr recent)
  · intro spares threshold recycles name wasHot isWarm
    unfold AgentToolContext.getTier at wasHot
    split at wasHot
    · cases wasHot
    rename_i entry found
    have evicted : entry.idles history.context.currentTurn threshold = true := by
      rw [AgentToolContext.getTier, lookup_handle_of_recycles recycles found wasHot] at isWarm
      exact idles_of_recycled wasHot isWarm
    have loaded : ∀ time, history.loadedAt name = some time → threshold ≤ history.clock - time := by
      intro time isLoad
      by_contra recent
      have spared := spares threshold recycles name entry found time isLoad (not_le.mp recent)
      rw [evicted] at spared
      cases spared
    refine ⟨loaded, fun time isUse => ?_⟩
    obtain ⟨_, optional, idle⟩ := idles_iff.mp evicted
    have follows := tracked.follows name entry found optional
    rcases idle with ⟨unused, _⟩ | ⟨used, since⟩
    · -- The use came before the load.
      obtain ⟨load, isLoad, earlier⟩ := follows.unused unused wasHot time isUse
      have ago := loaded load isLoad
      omega
    · have last := Option.some.inj ((follows.used used).symm.trans isUse)
      omega

/-! ## Runs -/

/-- A context as it is constructed. -/
def start (vault : ToolVault V) (maxHotTools recycleAfterTurns : Int) : LoadHistory V where
  context := { vault, maxHotTools, recycleAfterTurns }

theorem tracked_start (vault : ToolVault V) (maxHotTools recycleAfterTurns : Int) :
    (start vault maxHotTools recycleAfterTurns).Tracked :=
  ⟨le_rfl, nofun, nofun⟩

/--
In every run of a context, all tools that are recycled were loaded and used long enough
ago exactly if no tool that was loaded since idles when there is recycling.
-/
theorem recyclesIdle_run_iff (vault : ToolVault V) (maxHotTools recycleAfterTurns : Int)
    (events : List (ContextEvent V)) :
    StepsMeet step RecyclesIdle (start vault maxHotTools recycleAfterTurns) events ↔
      StepsMeet step SparesLoaded (start vault maxHotTools recycleAfterTurns) events :=
  stepsMeet_congr step Tracked tracked_step (fun _ event tracked => recyclesIdle_iff tracked event)
    (tracked_start vault maxHotTools recycleAfterTurns) events

/-- Two tools are loaded into one place in one turn. -/
theorem not_recyclesIdle_sameTurn :
    ¬ StepsMeet step RecyclesIdle (start AgentToolContext.onePlace.vault 1 3)
        [.advanceTurn, .promote "first", .promote "second"] := by
  intro idle
  have loads := (idle.2.2.1 1 (by decide) "first" (by decide) (by decide)).1 1 (by decide)
  exact absurd loads (by decide)

end LoadHistory

end YouMi.Mcp

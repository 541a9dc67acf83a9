import YouMi.Library.Runs
import YouMi.Mcp.ToolContext

/-!
# How many tools are hot

A promotion that finds all places taken first recycles what has idled for a turn.  An
essential tool, a tool used in this turn, and in turn 0 any tool, does not idle.  So a
promotion finds no place if all hot tools are such, and then takes one that is not there.
-/

namespace YouMi.Mcp

open YouMi.Library YouMi.Mcp.ToolStore

/-- What is called on a context that is set up; the vault, which is shared, may change as well. -/
inductive ContextOp (V : Type) where
  | promote (toolName : String)
  | demote (toolName : String)
  | recordUsage (toolName : String) (turn : Option Int)
  | advanceTurn
  | recycle (idleThreshold : Option Int)
  | reset
  | restock (vault : ToolVault V)

namespace AgentToolContext

variable {V : Type}

def step (context : AgentToolContext V) : ContextOp V → AgentToolContext V
  | .promote toolName => (context.promote toolName).2
  | .demote toolName => (context.demote toolName).2
  | .recordUsage toolName turn => context.recordUsageIn toolName turn
  | .advanceTurn => context.advanceTurn
  | .recycle idleThreshold => (context.recycle idleThreshold).2
  | .reset => context.reset
  | .restock vault => { context with vault }

def essentialCount (context : AgentToolContext V) : Nat :=
  (context.contexts.filter fun entry => entry.2.essential).length

/-- The operation is no promotion that succeeds, or leaves no more tools hot than there may be. -/
def PromotesWithin (context : AgentToolContext V) (op : ContextOp V) : Prop :=
  match op with
  | .promote toolName => (context.promote toolName).1 = true →
      ((context.promote toolName).2.hotCount : Int) ≤ context.maxHotTools
  | _ => True

/--
The operation promotes no tool for which room must be made, or some hot tool idles: it is
not essential, and was last used in an earlier turn, or never and the turn is not 0.
-/
def FindsRoom (context : AgentToolContext V) (op : ContextOp V) : Prop :=
  match op with
  | .promote toolName => (context.vault.entries.lookup toolName).isSome = true →
      context.getTier toolName ≠ .hot → context.maxHotTools ≤ context.hotCount →
        ∃ entry ∈ context.contexts, entry.2.idles context.currentTurn 1 = true
  | _ => True

/-- What every promotion relies on: few essential tools, and no more hot tools than allowed. -/
structure Sized (context : AgentToolContext V) : Prop where
  distinct : context.contexts.keys.Nodup
  essential : (context.essentialCount : Int) < context.maxHotTools
  bounded : (context.hotCount : Int) ≤ context.maxHotTools

/-! ## Counting -/

section Counting

variable {context : AgentToolContext V} {toolName : String} {entry : ContextEntry}

/-- The count of the entries of a kind, when one entry is changed. -/
theorem length_filter_change (distinct : context.contexts.keys.Nodup)
    (found : context.contexts.lookup toolName = some entry) (changed : ContextEntry)
    (keep : ContextEntry → Bool) :
    ((context.contexts.assign toolName changed).filter fun e => keep e.2).length +
        (if keep entry then 1 else 0) =
      (context.contexts.filter fun e => keep e.2).length + if keep changed then 1 else 0 :=
  OrderedDict.length_filter_assign distinct found fun e => keep e.2

theorem length_filter_map (contexts : OrderedDict String ContextEntry)
    (change : ContextEntry → ContextEntry) (keep : ContextEntry → Bool) :
    ((contexts.map fun entry => (entry.1, change entry.2)).filter fun e => keep e.2).length =
      (contexts.filter fun e => keep (change e.2)).length := by
  rw [List.filter_map, List.length_map]
  rfl

theorem keys_map (contexts : OrderedDict String ContextEntry)
    (change : ContextEntry → ContextEntry) :
    OrderedDict.keys (contexts.map fun entry => (entry.1, change entry.2)) =
      contexts.keys := by
  simp [OrderedDict.keys]

theorem hot_of_idles {entry : ContextEntry} {currentTurn threshold : Int}
    (idles : entry.idles currentTurn threshold = true) : entry.tier = .hot := by
  unfold ContextEntry.idles at idles
  rw [Bool.and_eq_true, Bool.and_eq_true, decide_eq_true_eq] at idles
  exact idles.1.1

theorem recycled_tier (entry : ContextEntry) (currentTurn threshold : Int) :
    decide ((entry.recycled currentTurn threshold).tier = .hot) =
      (decide (entry.tier = .hot) && !entry.idles currentTurn threshold) := by
  unfold ContextEntry.recycled
  split
  · rename_i idles
    simp [idles]
  · rename_i stays
    simp [stays]

/-- What idles is no longer counted after recycling. -/
theorem hotCount_recycle (context : AgentToolContext V) (idleThreshold : Option Int) :
    (context.recycle idleThreshold).2.hotCount +
        (context.contexts.filter fun entry => entry.2.idles context.currentTurn
          (idleThreshold.getD context.recycleAfterTurns)).length = context.hotCount := by
  generalize isThreshold : idleThreshold.getD context.recycleAfterTurns = threshold
  have kept : (context.recycle idleThreshold).2.hotCount =
      (context.contexts.filter fun entry =>
        decide (entry.2.tier = .hot) && !entry.2.idles context.currentTurn threshold).length := by
    unfold hotCount recycle
    dsimp only
    rw [isThreshold, length_filter_map _ (fun entry => entry.recycled context.currentTurn threshold)
      fun entry => decide (entry.tier = .hot)]
    simp only [recycled_tier]
  have given : (context.contexts.filter fun entry =>
      entry.2.idles context.currentTurn threshold) =
        (context.contexts.filter fun entry => decide (entry.2.tier = .hot)).filter fun entry =>
          entry.2.idles context.currentTurn threshold := by
    rw [List.filter_filter]
    refine List.filter_congr fun entry _ => ?_
    cases idles : entry.2.idles context.currentTurn threshold with
    | false => rfl
    | true => rw [hot_of_idles idles]; rfl
  have split := List.length_eq_length_filter_add
    (l := context.contexts.filter fun entry => decide (entry.2.tier = .hot))
    fun entry => entry.2.idles context.currentTurn threshold
  rw [List.filter_filter (p := fun entry : String × ContextEntry =>
    !entry.2.idles context.currentTurn threshold)] at split
  rw [kept, given, hotCount, split]
  simp only [Bool.and_comm]
  omega

/-- A new entry is cold and not essential, so it counts for nothing. -/
theorem length_filter_enter (context : AgentToolContext V) (toolName : String)
    (keep : ContextEntry → Bool) (new : keep { toolName } = false) :
    ((context.enter toolName).contexts.filter fun e => keep e.2).length =
      (context.contexts.filter fun e => keep e.2).length := by
  unfold enter
  split
  · rfl
  · rename_i absent
    have noKey : toolName ∉ context.contexts.keys := fun member =>
      absent (OrderedDict.lookup_isSome_iff.mpr member)
    dsimp only
    rw [OrderedDict.assign, if_neg noKey, List.filter_append, List.filter_cons_of_neg (by simpa),
      List.filter_nil, List.append_nil]

theorem distinct_enter (distinct : context.contexts.keys.Nodup) (toolName : String) :
    (context.enter toolName).contexts.keys.Nodup := by
  unfold enter
  split
  · exact distinct
  · exact OrderedDict.nodup_keys_assign distinct

theorem getTier_enter (context : AgentToolContext V) (toolName : String) :
    (context.enter toolName).getTier toolName = context.getTier toolName := by
  unfold enter
  split
  · rfl
  · rename_i absent
    unfold getTier
    rw [OrderedDict.lookup_assign_self, Option.not_isSome_iff_eq_none.mp absent]

theorem enter_constants (context : AgentToolContext V) (toolName : String) :
    (context.enter toolName).maxHotTools = context.maxHotTools ∧
      (context.enter toolName).currentTurn = context.currentTurn := by
  unfold enter
  split <;> exact ⟨rfl, rfl⟩

theorem hotCount_enter (context : AgentToolContext V) (toolName : String) :
    (context.enter toolName).hotCount = context.hotCount :=
  length_filter_enter context toolName (fun entry => decide (entry.tier = .hot)) rfl

theorem hotCount_setTier (distinct : context.contexts.keys.Nodup)
    (found : context.contexts.lookup toolName = some entry) (cool : entry.tier ≠ .hot) :
    (context.setTier toolName .hot).hotCount = context.hotCount + 1 := by
  have exchanged := length_filter_change distinct found { entry with tier := .hot }
    fun e => decide (e.tier = .hot)
  rw [setTier, found]
  unfold hotCount
  simpa [cool] using exchanged

end Counting

/-! ## Promotions -/

section Promote

variable {context : AgentToolContext V} {toolName : String}

/-- The context in which the tool is made hot: it has an entry, and room was made. -/
theorem promote_of_cool (known : (context.vault.entries.lookup toolName).isSome = true)
    (cool : context.getTier toolName ≠ .hot) :
    context.promote toolName = (true, (context.enter toolName).makeRoom.setTier toolName .hot) := by
  obtain ⟨stock, found⟩ := Option.isSome_iff_exists.mp known
  unfold promote
  rw [found]
  dsimp only
  rw [getTier_enter, if_neg cool]

theorem promote_of_hot (known : (context.vault.entries.lookup toolName).isSome = true)
    (hot : context.getTier toolName = .hot) :
    context.promote toolName = (true, context.enter toolName) := by
  obtain ⟨stock, found⟩ := Option.isSome_iff_exists.mp known
  unfold promote
  rw [found]
  dsimp only
  rw [getTier_enter, if_pos hot]

/-- Making room leaves a tool that is not hot as it is. -/
theorem lookup_makeRoom_of_cool (context : AgentToolContext V) {entry : ContextEntry}
    (found : context.contexts.lookup toolName = some entry) (cool : entry.tier ≠ .hot) :
    context.makeRoom.contexts.lookup toolName = some entry := by
  unfold makeRoom
  split
  · have mapped := OrderedDict.lookup_map_values context.contexts
      (fun entry => entry.recycled context.currentTurn 1) toolName
    refine mapped.trans ?_
    have stays : ¬ entry.idles context.currentTurn 1 = true := fun idles => cool (hot_of_idles idles)
    rw [found, Option.map_some, ContextEntry.recycled, if_neg stays]
  · exact found

theorem distinct_makeRoom (distinct : context.contexts.keys.Nodup) :
    context.makeRoom.contexts.keys.Nodup := by
  unfold makeRoom
  split
  · have same := keys_map context.contexts fun entry => entry.recycled context.currentTurn 1
    exact same.symm ▸ distinct
  · exact distinct

/-- A promotion makes one more tool hot than there are after making room. -/
theorem hotCount_promote (distinct : context.contexts.keys.Nodup)
    (known : (context.vault.entries.lookup toolName).isSome = true)
    (cool : context.getTier toolName ≠ .hot) :
    (context.promote toolName).2.hotCount = (context.enter toolName).makeRoom.hotCount + 1 := by
  obtain ⟨entry, found⟩ := Option.isSome_iff_exists.mp (isSome_lookup_enter context toolName)
  have isCool : entry.tier ≠ .hot := by
    rw [← getTier_enter, getTier, found] at cool
    exact cool
  rw [promote_of_cool known cool]
  exact hotCount_setTier (distinct_makeRoom (distinct_enter distinct toolName))
    (lookup_makeRoom_of_cool _ found isCool) isCool

/-- Room is made where it is needed, by as many tools as idle. -/
theorem hotCount_makeRoom_enter (context : AgentToolContext V) (toolName : String) :
    (context.enter toolName).makeRoom.hotCount +
        (if context.maxHotTools ≤ context.hotCount then
          (context.contexts.filter fun entry => entry.2.idles context.currentTurn 1).length
        else 0) = context.hotCount := by
  obtain ⟨sameMax, sameTurn⟩ := enter_constants context toolName
  have idle := length_filter_enter context toolName
    (fun entry => entry.idles context.currentTurn 1) rfl
  have recycled := hotCount_recycle (context.enter toolName) (some 1)
  rw [Option.getD_some, sameTurn, idle, hotCount_enter] at recycled
  rw [makeRoom, sameMax, hotCount_enter]
  split
  · exact recycled
  · exact hotCount_enter context toolName

/-- A promotion stays within the bound exactly if it needs no room or finds it. -/
theorem promotesWithin_iff (sized : context.Sized) (op : ContextOp V) :
    context.PromotesWithin op ↔ context.FindsRoom op := by
  cases op with
  | promote toolName =>
      unfold PromotesWithin FindsRoom
      dsimp only
      rw [promote_fst]
      refine forall_congr' fun known => ?_
      by_cases hot : context.getTier toolName = .hot
      · rw [promote_of_hot known hot, hotCount_enter]
        exact iff_of_true sized.bounded fun cool => absurd hot cool
      · have room := hotCount_makeRoom_enter context toolName
        have bounded := sized.bounded
        rw [hotCount_promote sized.distinct known hot, forall_prop_of_true hot]
        have idle : (∃ entry ∈ context.contexts, entry.2.idles context.currentTurn 1 = true) ↔
            0 < (context.contexts.filter fun entry =>
              entry.2.idles context.currentTurn 1).length := by
          rw [List.length_pos_iff_exists_mem]
          simp only [List.mem_filter]
        rw [idle]
        split at room <;> omega
  | _ => exact Iff.rfl

end Promote

/-! ## Operations -/

section Operations

variable {context : AgentToolContext V} {toolName : String} {entry : ContextEntry}

/-- A changed entry that is as essential as before, and hot only if it was. -/
theorem Sized.assign (sized : context.Sized)
    (found : context.contexts.lookup toolName = some entry) {changed : ContextEntry}
    (essential : changed.essential = entry.essential)
    (cooler : changed.tier = .hot → entry.tier = .hot) :
    ({ context with contexts := context.contexts.assign toolName changed } :
      AgentToolContext V).Sized := by
  have essentials := length_filter_change sized.distinct found changed ContextEntry.essential
  have hots := length_filter_change sized.distinct found changed fun e => decide (e.tier = .hot)
  rw [essential] at essentials
  refine ⟨OrderedDict.nodup_keys_assign sized.distinct, ?_, ?_⟩
  · have before := sized.essential
    unfold essentialCount at before ⊢
    dsimp only
    omega
  · have before := sized.bounded
    unfold hotCount at before ⊢
    dsimp only
    by_cases hot : changed.tier = .hot
    · simp only [hot, cooler hot, decide_true, if_pos] at hots
      omega
    · simp only [hot, decide_false, Bool.false_eq_true, if_false] at hots
      omega

theorem Sized.setTier (sized : context.Sized) {tier : ToolContextTier} (cooler : tier ≠ .hot) :
    (context.setTier toolName tier).Sized := by
  unfold AgentToolContext.setTier
  split
  · exact sized
  · rename_i entry found
    exact sized.assign found rfl fun hot => absurd hot cooler

theorem Sized.recycle (sized : context.Sized) (idleThreshold : Option Int) :
    (context.recycle idleThreshold).2.Sized := by
  generalize isThreshold : idleThreshold.getD context.recycleAfterTurns = threshold
  have contexts : (context.recycle idleThreshold).2.contexts = context.contexts.map fun entry =>
      (entry.1, entry.2.recycled context.currentTurn threshold) := by
    rw [← isThreshold]
    rfl
  have essential : ∀ entry : ContextEntry,
      (entry.recycled context.currentTurn threshold).essential = entry.essential := by
    intro entry
    unfold ContextEntry.recycled
    split <;> rfl
  have hots := hotCount_recycle context idleThreshold
  have before := sized.bounded
  refine ⟨?_, ?_, ?_⟩
  · rw [contexts, keys_map context.contexts fun entry => entry.recycled context.currentTurn threshold]
    exact sized.distinct
  · unfold essentialCount
    rw [contexts, length_filter_map _ (fun entry => entry.recycled context.currentTurn threshold)
      ContextEntry.essential]
    simp only [essential]
    exact sized.essential
  · change ((context.recycle idleThreshold).2.hotCount : Int) ≤ context.maxHotTools
    omega

/-- After a reset the essential tools are hot and no others. -/
theorem Sized.reset (sized : context.Sized) : context.reset.Sized := by
  have essential : ∀ entry : ContextEntry, entry.reset.essential = entry.essential := by
    intro entry
    unfold ContextEntry.reset
    split <;> rfl
  have hot : ∀ entry : ContextEntry, decide (entry.reset.tier = .hot) = entry.essential := by
    intro entry
    unfold ContextEntry.reset
    split
    · rename_i isEssential
      simp [isEssential]
    · rename_i optional
      simp [optional]
  have few := sized.essential
  refine ⟨?_, ?_, ?_⟩
  · change (OrderedDict.keys (context.contexts.map fun entry => (entry.1, entry.2.reset))).Nodup
    rw [keys_map]
    exact sized.distinct
  · change (((context.contexts.map fun entry => (entry.1, entry.2.reset)).filter
      fun e => e.2.essential).length : Int) < context.maxHotTools
    rw [length_filter_map]
    simp only [essential]
    exact few
  · change (((context.contexts.map fun entry => (entry.1, entry.2.reset)).filter
      fun e => decide (e.2.tier = .hot)).length : Int) ≤ context.maxHotTools
    rw [length_filter_map _ ContextEntry.reset fun e => decide (e.tier = .hot)]
    simp only [hot]
    exact few.le

theorem Sized.enter (sized : context.Sized) (toolName : String) :
    (context.enter toolName).Sized where
  distinct := distinct_enter sized.distinct toolName
  essential := by
    rw [(enter_constants context toolName).1]
    have same := length_filter_enter context toolName ContextEntry.essential rfl
    unfold essentialCount
    rw [same]
    exact sized.essential
  bounded := by
    rw [(enter_constants context toolName).1, hotCount_enter]
    exact sized.bounded

theorem Sized.makeRoom (sized : context.Sized) : context.makeRoom.Sized := by
  unfold AgentToolContext.makeRoom
  split
  · exact sized.recycle (some 1)
  · exact sized

/-- Making a tool hot changes neither the keys nor what is essential. -/
theorem Sized.heat (sized : context.Sized)
    (within : ((context.setTier toolName .hot).hotCount : Int) ≤ context.maxHotTools) :
    (context.setTier toolName .hot).Sized := by
  unfold AgentToolContext.setTier at within ⊢
  split
  · exact sized
  · rename_i entry found
    rw [found] at within
    have essentials := length_filter_change sized.distinct found { entry with tier := .hot }
      ContextEntry.essential
    refine ⟨OrderedDict.nodup_keys_assign sized.distinct, ?_, within⟩
    have before := sized.essential
    unfold essentialCount at before ⊢
    dsimp only at essentials ⊢
    omega

theorem maxHotTools_makeRoom (context : AgentToolContext V) :
    context.makeRoom.maxHotTools = context.maxHotTools := by
  unfold makeRoom
  split <;> rfl

/-- An operation within the bound leaves the context sized. -/
theorem Sized.step (sized : context.Sized) (op : ContextOp V) (within : context.PromotesWithin op) :
    (context.step op).Sized := by
  cases op with
  | promote toolName =>
      change (context.promote toolName).2.Sized
      by_cases known : (context.vault.entries.lookup toolName).isSome = true
      · by_cases hot : context.getTier toolName = .hot
        · rw [promote_of_hot known hot]
          exact sized.enter toolName
        · unfold PromotesWithin at within
          dsimp only at within
          rw [promote_of_cool known hot] at within ⊢
          refine (sized.enter toolName).makeRoom.heat ?_
          rw [maxHotTools_makeRoom, (enter_constants context toolName).1]
          exact within rfl
      · rw [promote_of_unknown (Option.not_isSome_iff_eq_none.mp known)]
        exact sized
  | demote toolName =>
      change (context.demote toolName).2.Sized
      unfold demote
      split
      · exact sized
      · split
        · exact sized
        · exact sized.setTier (by decide)
  | recordUsage toolName turn =>
      change (context.recordUsageIn toolName turn).Sized
      unfold recordUsageIn
      split
      · exact sized
      · rename_i entry found
        exact sized.assign found rfl id
  | advanceTurn => exact ⟨sized.distinct, sized.essential, sized.bounded⟩
  | recycle idleThreshold => exact sized.recycle idleThreshold
  | reset => exact sized.reset
  | restock vault => exact ⟨sized.distinct, sized.essential, sized.bounded⟩

end Operations

/-! ## Runs -/

/--
In a run that starts with no more hot tools than allowed, and fewer essential ones, every
promotion stays within the bound exactly if each that needs room finds a hot tool that idles.
-/
theorem promotesWithin_run_iff (context : AgentToolContext V)
    (distinct : context.contexts.keys.Nodup)
    (essential : (context.essentialCount : Int) < context.maxHotTools)
    (bounded : (context.hotCount : Int) ≤ context.maxHotTools) (ops : List (ContextOp V)) :
    StepsMeet step PromotesWithin context ops ↔ StepsMeet step FindsRoom context ops :=
  stepsMeet_iff_of_guarded step Sized
    (fun _ op sized finds => sized.step op ((promotesWithin_iff sized op).mpr finds))
    (fun _ op sized => promotesWithin_iff sized op) ⟨distinct, essential, bounded⟩ ops

/-- Two tools in the vault and one place. -/
def onePlace : AgentToolContext Unit where
  vault := ⟨[("first", ⟨plainEntry "1.0.0", .cold⟩), ("second", ⟨plainEntry "1.0.0", .cold⟩)],
    .empty none⟩
  maxHotTools := 1

theorem promotesWithin_run_iff_onePlace :
    onePlace.contexts.keys.Nodup ∧ (onePlace.essentialCount : Int) < onePlace.maxHotTools ∧
      (onePlace.hotCount : Int) ≤ onePlace.maxHotTools ∧
        (StepsMeet step PromotesWithin onePlace
            [.promote "first", .advanceTurn, .promote "second"] ↔
          StepsMeet step FindsRoom onePlace
            [.promote "first", .advanceTurn, .promote "second"]) :=
  ⟨by decide, by decide, by decide,
    promotesWithin_run_iff onePlace (by decide) (by decide) (by decide) _⟩

/-- In turn 0 the place is taken twice. -/
theorem not_promotesWithin_turnZero :
    onePlace.contexts.keys.Nodup ∧ (onePlace.essentialCount : Int) < onePlace.maxHotTools ∧
      (onePlace.hotCount : Int) ≤ onePlace.maxHotTools ∧
        ¬ StepsMeet step PromotesWithin onePlace [.promote "first", .promote "second"] := by
  refine ⟨by decide, by decide, by decide, fun within => ?_⟩
  have two := within.2.1 (by decide)
  exact absurd two (by decide)

end AgentToolContext

end YouMi.Mcp

import YouMi.Gateway.Models
import YouMi.Library.OrderedDict
import YouMi.Library.Runs

/-!
# The masters of the executor

`MasterTaskExecutor` with a factory keeps one master for each tenant.  A task that finds
none has one made and stores it; between the two it waits for the factory, and another
task of the tenant may do the same.
-/

namespace YouMi.Gateway

open YouMi.Library

/-- A `MasterAgent` as an object. -/
abbrev Master := Nat

/-- What a call of the factory comes to; it may give `None`. -/
inductive FactoryResult where
  | made (master : Option Master)
  | raised

/-- Where a call of `execute` is. -/
inductive CallStage where
  /-- At the `await` of the factory. -/
  | creating
  /-- Before the lock. -/
  | waiting (master : Master)
  | running (master : Master)
  | done

structure ExecuteCall where
  tenant : String
  stage : CallStage

/-- The master that a call has, before it is done. -/
def CallStage.master : CallStage → Option Master
  | waiting master | running master => some master
  | creating | done => none

structure MasterTaskExecutor where
  /-- `_master`, and whether there is a factory. -/
  master : Option Master := none
  factory : Bool := true
  resetBetweenTasks : Bool := true
  perTenant : OrderedDict String (Option Master) := []
  locked : Bool := false
  executedAny : Bool := false
  calls : List ExecuteCall := []
  /-- What the factory has made, and for which tenant. -/
  produced : List (String × Master) := []
  resets : List Master := []
  destroyed : List Master := []

namespace MasterTaskExecutor

/-- The master of a tenant, if one is stored: `None` counts as none. -/
def stored (s : MasterTaskExecutor) (tenant : String) : Option Master :=
  (s.perTenant.lookup tenant).join

def setStage (s : MasterTaskExecutor) (call : Nat) (tenant : String) (stage : CallStage) :
    MasterTaskExecutor :=
  { s with calls := s.calls.set call ⟨tenant, stage⟩ }

/-- `execute`, up to the factory or the lock. -/
def execute (s : MasterTaskExecutor) (tenant : String) : MasterTaskExecutor :=
  let tenant := if tenant = "" then "default" else tenant
  let found := if s.factory then s.stored tenant else s.master
  let stage :=
    match found with
    | some master => .waiting master
    | none => if s.factory then .creating else .done
  { s with calls := s.calls ++ [⟨tenant, stage⟩] }

/-- The factory is done: its master is stored, whatever has been stored meanwhile. -/
def deliver (s : MasterTaskExecutor) (call : Nat) (result : FactoryResult) : MasterTaskExecutor :=
  match s.calls[call]? with
  | some ⟨tenant, .creating⟩ =>
      match result with
      | .raised => s.setStage call tenant .done
      | .made none =>
          { s with perTenant := s.perTenant.assign tenant none }.setStage call tenant .done
      | .made (some master) =>
          { s with
            perTenant := s.perTenant.assign tenant (some master)
            produced := s.produced ++ [(tenant, master)] }.setStage call tenant (.waiting master)
  | _ => s

/-- A call gets the lock; the master is reset unless nothing has been executed. -/
def acquire (s : MasterTaskExecutor) (call : Nat) : MasterTaskExecutor :=
  match s.calls[call]? with
  | some ⟨tenant, .waiting master⟩ =>
      if s.locked then s
      else
        { s with
          locked := true
          executedAny := true
          resets :=
            if s.resetBetweenTasks && s.executedAny then s.resets ++ [master]
            else s.resets }.setStage call tenant (.running master)
  | _ => s

/-- `chat_turn` returns or throws, and the lock is released. -/
def finish (s : MasterTaskExecutor) (call : Nat) : MasterTaskExecutor :=
  match s.calls[call]? with
  | some ⟨tenant, .running _⟩ => { s with locked := false }.setStage call tenant .done
  | _ => s

/-- `aclose`: the stored masters and that of the executor are destroyed, each once. -/
def aclose (s : MasterTaskExecutor) : MasterTaskExecutor :=
  let masters := s.perTenant.filterMap Prod.snd ++ s.master.toList
  { s with destroyed := s.destroyed ++ masters.eraseDups }

inductive Action where
  | execute (tenant : String)
  | deliver (call : Nat) (result : FactoryResult)
  | acquire (call : Nat)
  | finish (call : Nat)
  | aclose

def step (s : MasterTaskExecutor) : Action → MasterTaskExecutor
  | .execute tenant => s.execute tenant
  | .deliver call result => s.deliver call result
  | .acquire call => s.acquire call
  | .finish call => s.finish call
  | .aclose => s.aclose

/-! ## One master for each tenant -/

/-- No call is under way. -/
def Quiet (s : MasterTaskExecutor) : Prop := ∀ call ∈ s.calls, call.stage = .done

structure Sole (s : MasterTaskExecutor) : Prop where
  /-- Calls of one tenant use one master. -/
  used : ∀ first ∈ s.calls, ∀ second ∈ s.calls, first.tenant = second.tenant →
    ∀ master other, first.stage.master = some master → second.stage.master = some other →
      master = other
  /-- What was made for a tenant is what its next task uses. -/
  kept : ∀ tenant master, (tenant, master) ∈ s.produced → s.stored tenant = some master
  /-- When no task is running, `aclose` destroys all that was made. -/
  closed : s.Quiet → ∀ tenant master, (tenant, master) ∈ s.produced →
    master ∈ s.aclose.destroyed

/-- No other master has been stored for the tenant while the factory was at work. -/
def Timely (s : MasterTaskExecutor) : Action → Prop
  | .deliver call (.made result) => ∀ tenant, s.calls[call]? = some ⟨tenant, .creating⟩ →
      ∀ master, s.stored tenant = some master → result = some master
  | _ => True

/-- Masters come from the factory. -/
structure FromFactory (s : MasterTaskExecutor) : Prop where
  factory : s.factory = true
  stored : ∀ tenant master, s.stored tenant = some master → (tenant, master) ∈ s.produced
  used : ∀ call ∈ s.calls, ∀ master, call.stage.master = some master →
    (call.tenant, master) ∈ s.produced

section Step

variable {s t : MasterTaskExecutor} {call : Nat} {tenant : String} {stage : CallStage}

theorem stored_assign (s : MasterTaskExecutor) (tenant other : String) (result : Option Master) :
    ({ s with perTenant := s.perTenant.assign tenant result } : MasterTaskExecutor).stored other =
      if other = tenant then result else s.stored other := by
  unfold stored
  dsimp only
  rw [OrderedDict.lookup_assign]
  split <;> rfl

theorem mem_destroyed_aclose (s : MasterTaskExecutor) {master : Master}
    (found : s.stored tenant = some master) : master ∈ s.aclose.destroyed := by
  have there : s.perTenant.lookup tenant = some (some master) := Option.join_eq_some_iff.mp found
  have member := OrderedDict.mem_of_lookup there
  unfold aclose
  dsimp only
  rw [List.mem_append, List.mem_eraseDups, List.mem_append, List.mem_filterMap]
  exact .inr (.inl ⟨_, member, rfl⟩)

/-- All follows from what is stored. -/
theorem sole_iff (base : FromFactory s) :
    Sole s ↔ ∀ tenant master, (tenant, master) ∈ s.produced → s.stored tenant = some master := by
  refine ⟨Sole.kept, fun kept => ⟨?_, kept, fun _ tenant master made =>
    s.mem_destroyed_aclose (kept tenant master made)⟩⟩
  intro first member second member' same master other uses uses'
  have made := kept _ _ (base.used first member master uses)
  have made' := kept _ _ (base.used second member' other uses')
  rw [same, made'] at made
  exact (Option.some.inj made).symm

/-- A step that makes and stores nothing, in which calls have the masters they had. -/
theorem FromFactory.of_calls (base : FromFactory s) (factory : t.factory = s.factory)
    (stored : t.stored = s.stored) (produced : t.produced = s.produced)
    (calls : ∀ call ∈ t.calls, ∀ master, call.stage.master = some master →
      (call.tenant, master) ∈ s.produced) : FromFactory t where
  factory := factory.trans base.factory
  stored := by
    rw [stored, produced]
    exact base.stored
  used := by
    rw [produced]
    exact calls

/-- The masters of calls after one of them has moved. -/
theorem FromFactory.used_set (base : FromFactory s)
    (uses : ∀ master, stage.master = some master → (tenant, master) ∈ s.produced) :
    ∀ changed ∈ s.calls.set call ⟨tenant, stage⟩, ∀ master,
      changed.stage.master = some master → (changed.tenant, master) ∈ s.produced := by
  intro changed member
  rcases List.mem_or_eq_of_mem_set member with before | rfl
  · exact base.used changed before
  · exact uses

theorem fromFactory_deliver (base : FromFactory s) (result : FactoryResult) :
    FromFactory (s.deliver call result) := by
  unfold deliver
  split
  · rename_i tenant there
    cases result with
    | raised => exact base.of_calls rfl rfl rfl (base.used_set nofun)
    | made result =>
        cases result with
        | none =>
            refine ⟨base.factory, fun other master found => ?_, base.used_set nofun⟩
            change ({ s with perTenant := s.perTenant.assign tenant none } :
              MasterTaskExecutor).stored other = some master at found
            rw [stored_assign] at found
            split at found
            · cases found
            · exact base.stored other master found
        | some made =>
            refine ⟨base.factory, fun other master found => ?_, fun changed member master uses => ?_⟩
            · change ({ s with perTenant := s.perTenant.assign tenant (some made) } :
                MasterTaskExecutor).stored other = some master at found
              rw [stored_assign] at found
              split at found
              · rename_i same
                cases found
                exact List.mem_append_right _ (same ▸ List.mem_cons_self)
              · exact List.mem_append_left _ (base.stored other master found)
            · rcases List.mem_or_eq_of_mem_set member with before | rfl
              · exact List.mem_append_left _ (base.used changed before master uses)
              · cases uses
                exact List.mem_append_right _ List.mem_cons_self
  · exact base

theorem FromFactory.step (base : FromFactory s) (action : Action) : FromFactory (s.step action) := by
  cases action with
  | execute tenant =>
      refine base.of_calls rfl rfl rfl fun changed member master uses => ?_
      rcases List.mem_append.mp member with before | new
      · exact base.used changed before master uses
      · rw [List.mem_singleton] at new
        subst new
        rw [base.factory] at uses
        simp only [if_true] at uses
        split at uses
        · rename_i found
          cases uses
          exact base.stored _ _ found
        · cases uses
  | deliver call result => exact fromFactory_deliver base result
  | acquire call =>
      change FromFactory (s.acquire call)
      unfold acquire
      split
      · rename_i tenant master there
        split
        · exact base
        · have member := List.mem_of_getElem? there
          refine base.of_calls rfl rfl rfl (base.used_set fun other uses => ?_)
          exact base.used _ member other uses
      · exact base
  | finish call =>
      change FromFactory (s.finish call)
      unfold finish
      split
      · exact base.of_calls rfl rfl rfl (base.used_set nofun)
      · exact base
  | aclose => exact base.of_calls rfl rfl rfl base.used

/-- Everything that was made is stored. -/
def Kept (s : MasterTaskExecutor) : Prop :=
  ∀ tenant master, (tenant, master) ∈ s.produced → s.stored tenant = some master

/-- What the factory gave is stored, and replaces nothing else exactly if nothing else that was
made is lost. -/
theorem kept_iff_of_stored (kept : s.Kept) (base : FromFactory s) {result : Option Master}
    (stored : ∀ other, t.stored other = if other = tenant then result else s.stored other)
    (produced : ∀ other master, (other, master) ∈ t.produced ↔
      (other, master) ∈ s.produced ∨ other = tenant ∧ result = some master) :
    t.Kept ↔ ∀ master, s.stored tenant = some master → result = some master := by
  constructor
  · intro kept' master found
    have still := kept' tenant master ((produced _ _).mpr (.inl (base.stored _ _ found)))
    rwa [stored, if_pos rfl] at still
  · intro same other master made
    rw [stored]
    rcases (produced other master).mp made with before | ⟨own, given⟩
    · have there := kept other master before
      split
      · rename_i own
        exact same master (own ▸ there)
      · exact there
    · rw [if_pos own, given]

theorem kept_deliver_iff (kept : s.Kept) (base : FromFactory s) (result : FactoryResult) :
    (s.deliver call result).Kept ↔ s.Timely (.deliver call result) := by
  unfold deliver
  split
  · rename_i tenant there
    cases result with
    | raised => exact iff_of_true kept trivial
    | made result =>
        have timely : s.Timely (.deliver call (.made result)) ↔
            ∀ master, s.stored tenant = some master → result = some master := by
          constructor
          · exact fun timely => timely tenant there
          · intro same other there'
            rw [there] at there'
            cases there'
            exact same
        rw [timely]
        cases result with
        | none =>
            refine kept_iff_of_stored kept base (stored_assign s tenant · none) fun other master => ?_
            simp [setStage]
        | some made =>
            refine kept_iff_of_stored kept base (stored_assign s tenant · (some made))
              fun other master => ?_
            change (other, master) ∈ s.produced ++ [(tenant, made)] ↔ _
            simp [eq_comm]
  · rename_i elsewhere
    refine iff_of_true kept ?_
    cases result with
    | raised => trivial
    | made result => exact fun tenant there => absurd there (elsewhere tenant)

theorem kept_step_iff (kept : s.Kept) (base : FromFactory s) (action : Action) :
    (s.step action).Kept ↔ s.Timely action := by
  cases action with
  | execute tenant => exact iff_of_true kept trivial
  | deliver call result => exact kept_deliver_iff kept base result
  | acquire call =>
      refine iff_of_true ?_ trivial
      change (s.acquire call).Kept
      unfold acquire
      split
      · split
        · exact kept
        · exact kept
      · exact kept
  | finish call =>
      refine iff_of_true ?_ trivial
      change (s.finish call).Kept
      unfold finish
      split
      · exact kept
      · exact kept
  | aclose => exact iff_of_true kept trivial

end Step

/-- An executor with a factory. -/
def withFactory (master : Option Master) (reset : Bool) : MasterTaskExecutor where
  master := master
  resetBetweenTasks := reset

theorem fromFactory_withFactory (master : Option Master) (reset : Bool) :
    FromFactory (withFactory master reset) := by
  refine ⟨rfl, ?_, ?_⟩
  · intro tenant made found
    cases found
  · intro call member
    cases member

theorem sole_withFactory (master : Option Master) (reset : Bool) :
    Sole (withFactory master reset) := by
  refine ⟨?_, ?_, ?_⟩
  · intro fact member
    cases member
  · intro tenant made found
    cases found
  · intro _ tenant made found
    cases found

/--
All along a run there is one master for each tenant exactly if the factory never
delivers one for a tenant for which another has been stored meanwhile.
-/
theorem sole_throughout_iff (master : Option Master) (reset : Bool) (actions : List Action) :
    Throughout step Sole (withFactory master reset) actions ↔
      StepsMeet step Timely (withFactory master reset) actions := by
  refine throughout_iff_stepsMeet FromFactory Sole (fun _ action base => base.step action)
    (fun s action base sole => ?_) (fromFactory_withFactory master reset)
    (sole_withFactory master reset) actions
  exact (sole_iff (base.step action)).trans (kept_step_iff sole.kept base action)

/-- Two tasks of one tenant both find no master: the first that is made is lost. -/
theorem master_lost :
    ¬∀ actions, Throughout step Sole (withFactory none true) actions := by
  intro always
  have sole := always [.execute "a", .execute "a", .deliver 0 (.made (some 0)),
    .deliver 1 (.made (some 1))] 4
  exact absurd (sole.kept "a" 0 (by decide)) (by decide)

end MasterTaskExecutor

end YouMi.Gateway

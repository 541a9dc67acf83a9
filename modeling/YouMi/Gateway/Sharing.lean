import YouMi.Gateway.Service

/-!
# One registry for the service and its pool

A registry that is passed to the service should be the one that the service and the
workers write to and read from.  `or` puts a new one in the place of an empty one.
-/

namespace YouMi.Gateway.GatewayService

open YouMi.Library

/-- What is expected of the registry that is passed. -/
structure Shares (given : Nat) (s : GatewayService) : Prop where
  writes : ∀ index ∈ s.written, index = given
  get_eq : ∀ taskId, s.get taskId = ((s.registry given).get taskId).map s.records
  list_eq : ∀ tenant status limit,
    s.listTasks tenant status limit = (s.registry given).list s.records tenant status limit
  bounded : s.written ≠ [] → (s.registry given).Bounded s.finished

/-- The service and the pool both have the registry. -/
structure HoldsRegistry (given : Nat) (s : GatewayService) : Prop where
  service : s.serviceRegistry = given
  pool : s.poolRegistry = given
  valid : given < s.registries.length
  writes : ∀ index ∈ s.written, index = given
  bounded : s.written ≠ [] → (s.registry given).Bounded s.finished

section Step

variable {given : Nat} {s t : GatewayService}

theorem HoldsRegistry.shares (holds : HoldsRegistry given s) : Shares given s where
  writes := holds.writes
  get_eq := fun taskId => by rw [get, holds.service]
  list_eq := fun tenant status limit => by rw [listTasks, holds.service]
  bounded := holds.bounded

/-- Nothing else of the state matters. -/
theorem HoldsRegistry.of_eq (holds : HoldsRegistry given s) (records : t.records = s.records)
    (registries : t.registries = s.registries) (service : t.serviceRegistry = s.serviceRegistry)
    (pool : t.poolRegistry = s.poolRegistry) (written : t.written = s.written) :
    HoldsRegistry given t where
  service := service.trans holds.service
  pool := pool.trans holds.pool
  valid := registries ▸ holds.valid
  writes := written ▸ holds.writes
  bounded := by
    have same : t.finished = s.finished := by
      funext ref
      rw [finished, finished, records]
    have bounded := holds.bounded
    unfold registry at bounded ⊢
    rwa [written, registries, same]

/-- A record is written to the registry whenever it has changed. -/
theorem HoldsRegistry.publish (holds : HoldsRegistry given s) {index ref : Nat}
    (same : index = given) (registries : t.registries = s.registries)
    (service : t.serviceRegistry = s.serviceRegistry) (pool : t.poolRegistry = s.poolRegistry)
    (written : t.written = s.written) : HoldsRegistry given (t.publish index ref) where
  service := service.trans holds.service
  pool := pool.trans holds.pool
  valid := by
    change given < (t.registries.modify index _).length
    rw [List.length_modify, registries]
    exact holds.valid
  writes := by
    intro other member
    rcases List.mem_append.mp member with before | now
    · exact holds.writes other (written ▸ before)
    · exact (List.mem_singleton.mp now).trans same
  bounded := by
    intro _
    subst same
    have valid : index < t.registries.length := registries ▸ holds.valid
    have put : (t.publish index ref).registry index =
        (t.registry index).put t.finished (t.records ref).taskId ref := by
      unfold registry GatewayService.publish
      dsimp only
      rw [List.getElem?_modify_eq, List.getElem?_eq_getElem valid]
      rfl
    rw [put]
    exact TaskRegistry.bounded_put

theorem HoldsRegistry.enqueue (holds : HoldsRegistry given s) (ref : Ref) :
    HoldsRegistry given (s.enqueue ref) := by
  unfold GatewayService.enqueue
  split
  · exact holds.of_eq rfl rfl rfl rfl rfl
  · exact holds.of_eq rfl rfl rfl rfl rfl

theorem HoldsRegistry.step (holds : HoldsRegistry given s) (action : Action) :
    HoldsRegistry given (s.step action) := by
  cases action with
  | submit submission =>
      have written : HoldsRegistry given
          ((s.enter submission.record).publish s.serviceRegistry s.created) :=
        holds.publish holds.service rfl rfl rfl rfl
      exact written.enqueue s.created
  | resume ref =>
      change HoldsRegistry given (s.resume ref)
      rcases s.resume_cases ref with same | ⟨_, same⟩
      · rwa [same]
      · rw [same]
        exact holds.of_eq rfl rfl rfl rfl rfl
  | take worker now =>
      change HoldsRegistry given (s.take worker now)
      rcases s.take_cases worker now with same | ⟨ref, rest, _, _, same⟩
      · rwa [same]
      · rw [same]
        exact holds.publish holds.pool rfl rfl rfl rfl
  | finish worker execution now =>
      change HoldsRegistry given (s.finish worker execution now)
      rcases s.finish_cases worker execution now with same | ⟨ref, _, ⟨_, same⟩ | ⟨outcome, _, same⟩⟩
      · rwa [same]
      · rw [same]
        exact holds.of_eq rfl rfl rfl rfl rfl
      · rw [same]
        have written : HoldsRegistry given (((s.logged ref execution).change ref
            (conclude outcome now)).publish s.poolRegistry ref) :=
          holds.publish holds.pool rfl rfl rfl rfl
        exact written.of_eq rfl rfl rfl rfl rfl
  | client action =>
      obtain ⟨hub, same⟩ := s.clientStep_eq action
      change HoldsRegistry given (s.clientStep action)
      rw [same]
      exact holds.of_eq rfl rfl rfl rfl rfl

end Step

/-! ## Construction -/

section Create

variable {objects s : GatewayService} {given : Nat} {size : Option Nat}

theorem registryOr_of_nonempty {registries : List TaskRegistry} (valid : given < registries.length)
    (nonempty : (registries.get ⟨given, valid⟩).size ≠ 0) :
    registryOr registries (some given) = (registries, given) := by
  unfold registryOr
  dsimp only
  rw [if_pos]
  rw [List.getElem?_eq_getElem valid]
  exact decide_eq_true nonempty

/-- A new registry takes the place of an empty one. -/
theorem registryOr_of_empty {registries : List TaskRegistry} (valid : given < registries.length)
    (empty : (registries.get ⟨given, valid⟩).size = 0) :
    registryOr registries (some given) =
      (registries ++ [({} : TaskRegistry)], registries.length) := by
  unfold registryOr
  dsimp only
  rw [if_neg]
  rw [List.getElem?_eq_getElem valid]
  exact fun nonempty => of_decide_eq_true nonempty empty

theorem holdsRegistry_create (created : create objects (some given) size = some s)
    (valid : given < objects.registries.length)
    (nonempty : (objects.registries.get ⟨given, valid⟩).size ≠ 0) : HoldsRegistry given s := by
  unfold create at created
  rw [registryOr_of_nonempty valid nonempty] at created
  dsimp only at created
  rw [registryOr_of_nonempty valid nonempty] at created
  split at created
  · cases created
    exact ⟨rfl, rfl, valid, nofun, fun written => absurd rfl written⟩
  · cases created
  · cases created
    exact ⟨rfl, rfl, valid, nofun, fun written => absurd rfl written⟩

theorem serviceRegistry_create_of_empty (created : create objects (some given) size = some s)
    (valid : given < objects.registries.length)
    (empty : (objects.registries.get ⟨given, valid⟩).size = 0) :
    s.serviceRegistry = objects.registries.length ∧ s.written = [] := by
  unfold create at created
  rw [registryOr_of_empty valid empty] at created
  dsimp only at created
  split at created
  · cases created
    exact ⟨rfl, rfl⟩
  · cases created
  · cases created
    exact ⟨rfl, rfl⟩

theorem written_submit (s : GatewayService) (submission : Submission) :
    (s.submit submission).written = s.written ++ [s.serviceRegistry] := by
  unfold submit enqueue
  split <;> rfl

/--
The service and its workers use the registry that is passed, and keep it within
its limit, in all of every run exactly if it is not empty when it is passed.
-/
theorem shares_throughout_iff (objects : GatewayService) (given : Nat) (size : Option Nat)
    (s : GatewayService) (valid : given < objects.registries.length)
    (created : create objects (some given) size = some s) :
    (∀ actions, Throughout step (Shares given) s actions) ↔
      (objects.registries.get ⟨given, valid⟩).size ≠ 0 := by
  constructor
  · intro always empty
    obtain ⟨own, unwritten⟩ := serviceRegistry_create_of_empty created valid empty
    have shares := always [.submit { task := "", freshId := "", now := 0 }] 1
    have writes := shares.writes objects.registries.length
    change objects.registries.length ∈ (s.submit _).written → _ at writes
    rw [written_submit, own, unwritten] at writes
    exact absurd (writes List.mem_cons_self) (Nat.ne_of_gt valid)
  · intro nonempty actions count
    refine HoldsRegistry.shares ?_
    exact Reachable.invariant (HoldsRegistry given) (holdsRegistry_create created valid nonempty)
      (fun _ action holds => holds.step action) (Reachable.of_run s (actions.take count))

end Create

/-- A gateway with one registry, which holds one finished record. -/
def oneRecord : GatewayService where
  records := fun _ => { taskId := "old", status := .completed }
  created := 1
  registries := [{ records := [("old", 0)] }]

theorem shares_throughout_oneRecord :
    ∃ s, create oneRecord (some 0) (some 2) = some s ∧
      Throughout step (Shares 0) s
        [.submit { task := "task", freshId := "t", now := 0 }, .take 1 2] :=
  ⟨_, rfl, (shares_throughout_iff oneRecord 0 (some 2) _ (by decide) rfl).mpr (by decide) _⟩

/-- A registry that is empty when it is passed gets none of the records. -/
theorem empty_registry_unshared :
    ¬∀ (objects : GatewayService) (given : Nat) (size : Option Nat) (s : GatewayService),
      given < objects.registries.length → create objects (some given) size = some s →
        ∀ actions, Throughout step (Shares given) s actions := by
  intro always
  have shares := always { registries := [{}] } 0 (some 2) _ (by decide) rfl
    [.submit { task := "task", freshId := "t", now := 0 }] 1
  exact absurd (shares.writes 1 (by decide)) (by decide)

end YouMi.Gateway.GatewayService

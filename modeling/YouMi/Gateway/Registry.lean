import Mathlib.Data.List.Count
import YouMi.Gateway.Models
import YouMi.Library.OrderedDict
import YouMi.Library.Runs

/-!
# The task registry

Records in the order in which their identifiers came.  Beyond its limit the registry
drops the oldest records that are finished, and no others.
-/

namespace YouMi.Gateway

open YouMi.Library

structure TaskRegistry where
  records : OrderedDict String Ref := []
  /-- `_max`. -/
  max : Int := 1000
  distinct : records.keys.Nodup := by decide

/-- The loop of `_evict_if_needed`. -/
def evict (finished : Ref → Bool) : Nat → OrderedDict String Ref → OrderedDict String Ref
  | _, [] => []
  | 0, rest => rest
  | overflow + 1, entry :: rest =>
      if finished entry.2 then evict finished overflow rest
      else entry :: evict finished (overflow + 1) rest

section Evict

variable {finished : Ref → Bool} {overflow : Nat} {entries : OrderedDict String Ref}

theorem evict_sublist (finished : Ref → Bool) (overflow : Nat)
    (entries : OrderedDict String Ref) : (evict finished overflow entries).Sublist entries := by
  induction entries generalizing overflow with
  | nil => cases overflow <;> exact List.Sublist.refl []
  | cons entry rest ih =>
      cases overflow with
      | zero => exact List.Sublist.refl _
      | succ overflow =>
          unfold evict
          split
          · exact (ih overflow).cons entry
          · exact (ih (overflow + 1)).cons_cons entry

/-- What is left is within the limit, or nothing finished is left. -/
theorem length_evict_le (finished : Ref → Bool) (overflow : Nat)
    (entries : OrderedDict String Ref) :
    (evict finished overflow entries).length + overflow ≤ entries.length ∨
      ∀ entry ∈ evict finished overflow entries, finished entry.2 = false := by
  induction entries generalizing overflow with
  | nil =>
      right
      cases overflow <;> exact nofun
  | cons entry rest ih =>
      cases overflow with
      | zero => exact .inl (Nat.le_refl _)
      | succ overflow =>
          unfold evict
          split
          · refine (ih overflow).imp_left fun within => ?_
            rw [List.length_cons]
            omega
          · rename_i unfinished
            rcases ih (overflow + 1) with within | none
            · left
              rw [List.length_cons, List.length_cons]
              omega
            · right
              intro kept member
              rcases List.mem_cons.mp member with rfl | later
              · exact Bool.eq_false_iff.mpr unfinished
              · exact none kept later

/-- An unfinished record that its identifier leads to stays where it is. -/
theorem lookup_evict_of_unfinished {taskId : String} {ref : Ref}
    (found : entries.lookup taskId = some ref) (unfinished : finished ref = false) :
    (evict finished overflow entries).lookup taskId = some ref := by
  induction entries generalizing overflow with
  | nil => cases found
  | cons entry rest ih =>
      obtain ⟨first, other⟩ := entry
      cases overflow with
      | zero => exact found
      | succ overflow =>
          rw [List.lookup_cons] at found
          unfold evict
          by_cases same : taskId = first
          · subst same
            simp only [beq_self_eq_true, Option.some.injEq] at found
            subst found
            rw [if_neg (Bool.eq_false_iff.mp unfinished)]
            simp
          · rw [beq_false_of_ne same] at found
            split
            · exact ih found
            · rw [List.lookup_cons, beq_false_of_ne same]
              exact ih found

/-- What is left stood there before. -/
theorem lookup_of_lookup_evict (distinct : entries.keys.Nodup) {taskId : String} {ref : Ref}
    (found : (evict finished overflow entries).lookup taskId = some ref) :
    entries.lookup taskId = some ref :=
  OrderedDict.lookup_eq_some_of_mem distinct
    ((evict_sublist finished overflow entries).subset (OrderedDict.mem_of_lookup found))

end Evict

namespace TaskRegistry

/-- `_evict_if_needed`, when `finished` tells the records that are. -/
def evictIfNeeded (finished : Ref → Bool) (registry : TaskRegistry) : TaskRegistry :=
  if registry.max ≤ 0 ∨ registry.records.length ≤ registry.max then registry
  else
    { registry with
      records := evict finished (registry.records.length - registry.max).toNat registry.records
      distinct := registry.distinct.sublist ((evict_sublist _ _ _).map Prod.fst) }

/-- `put` for the record with the identifier. -/
def put (finished : Ref → Bool) (registry : TaskRegistry) (taskId : String) (ref : Ref) :
    TaskRegistry :=
  evictIfNeeded finished
    { registry with
      records := registry.records.assign taskId ref
      distinct := OrderedDict.nodup_keys_assign registry.distinct }

def get (registry : TaskRegistry) (taskId : String) : Option Ref := registry.records.lookup taskId

/-- `list`: the records that pass the filters, newest first. -/
def list (record : Ref → TaskRecord) (registry : TaskRegistry) (tenant : Option String)
    (status : Option TaskStatus) (limit : Int) : List TaskRecord :=
  let records := registry.records.reverse.map fun entry => record entry.2
  let records := records.filter fun r => tenant.all (r.tenant = ·)
  let records := records.filter fun r => status.all (r.status = ·)
  if 0 < limit then records.take limit.toNat else records

/-- `__len__`, by which a registry counts as false while it is empty. -/
def size (registry : TaskRegistry) : Nat := registry.records.length

def unfinished (finished : Ref → Bool) (registry : TaskRegistry) : Nat :=
  registry.records.countP fun entry => !finished entry.2

/-- The registry has outgrown its limit only by unfinished records. -/
def Bounded (finished : Ref → Bool) (registry : TaskRegistry) : Prop :=
  0 < registry.max →
    (registry.size : Int) ≤ Max.max registry.max (registry.unfinished finished)

variable {finished : Ref → Bool} {registry : TaskRegistry} {taskId : String} {ref : Ref}

@[simp]
theorem max_evictIfNeeded : (registry.evictIfNeeded finished).max = registry.max := by
  unfold evictIfNeeded
  split <;> rfl

theorem bounded_evictIfNeeded : Bounded finished (registry.evictIfNeeded finished) := by
  intro limited
  rw [max_evictIfNeeded] at limited ⊢
  unfold evictIfNeeded size unfinished
  split
  · rename_i within
    omega
  · rename_i isOver
    have remaining := length_evict_le finished
      (registry.records.length - registry.max).toNat registry.records
    rcases remaining with within | none
    · refine Int.le_trans ?_ (Int.le_max_left _ _)
      dsimp only
      omega
    · refine Int.le_trans ?_ (Int.le_max_right _ _)
      dsimp only
      have all := List.countP_eq_length.mpr fun entry member =>
        congrArg not (none entry member)
      exact Int.le_of_eq (congrArg Nat.cast all.symm)

theorem bounded_put : Bounded finished (registry.put finished taskId ref) := bounded_evictIfNeeded

theorem get_evictIfNeeded_of_unfinished (found : registry.get taskId = some ref)
    (unfinished : finished ref = false) :
    (registry.evictIfNeeded finished).get taskId = some ref := by
  unfold evictIfNeeded get
  split
  · exact found
  · exact lookup_evict_of_unfinished found unfinished

theorem get_of_get_evictIfNeeded (found : (registry.evictIfNeeded finished).get taskId = some ref) :
    registry.get taskId = some ref := by
  unfold evictIfNeeded get at found
  split at found
  · exact found
  · exact lookup_of_lookup_evict registry.distinct found

/-- An unfinished record is found under its identifier after it has been put. -/
theorem get_put_self (unfinished : finished ref = false) :
    (registry.put finished taskId ref).get taskId = some ref :=
  get_evictIfNeeded_of_unfinished OrderedDict.lookup_assign_self unfinished

/-- Under another identifier an unfinished record stays. -/
theorem get_put_of_ne {other : String} {kept : Ref} (ne : other ≠ taskId)
    (found : registry.get other = some kept) (unfinished : finished kept = false) :
    (registry.put finished taskId ref).get other = some kept :=
  get_evictIfNeeded_of_unfinished ((OrderedDict.lookup_assign_ne ne).trans found) unfinished

theorem get_of_get_put {other : String} {kept : Ref}
    (found : (registry.put finished taskId ref).get other = some kept) :
    if other = taskId then kept = ref else registry.get other = some kept := by
  have stood : (registry.records.assign taskId ref).lookup other = some kept :=
    get_of_get_evictIfNeeded found
  rw [OrderedDict.lookup_assign] at stood
  split
  · rename_i same
    rw [if_pos same] at stood
    exact (Option.some.inj stood).symm
  · rename_i ne
    rwa [if_neg ne] at stood

end TaskRegistry

end YouMi.Gateway

/-!
## What the task registry evicts

One `put` after another, with the statuses of the records as they are at each.  The scan
deletes the first finished entries, as many as the registry is over its limit, and keeps
everything else in its place.
-/

namespace YouMi.Gateway

open YouMi.Library

section Evict

variable {finished : Ref → Bool} {overflow : Nat} {entries : OrderedDict String Ref}

theorem mem_evict_of_unfinished {entry : String × Ref} (member : entry ∈ entries)
    (unfinished : finished entry.2 = false) : entry ∈ evict finished overflow entries := by
  induction entries generalizing overflow with
  | nil => cases member
  | cons first rest ih =>
      cases overflow with
      | zero => exact member
      | succ overflow =>
          unfold evict
          rcases List.mem_cons.mp member with rfl | later
          · rw [if_neg (Bool.eq_false_iff.mp unfinished)]
            exact List.mem_cons_self
          · split
            · exact ih later
            · exact List.mem_cons_of_mem _ (ih later)

/-- The deleted entries are the first of the finished ones. -/
theorem filter_notMem_evict (distinct : entries.Nodup) :
    entries.filter (fun entry => decide (entry ∉ evict finished overflow entries)) =
      (entries.filter fun entry => finished entry.2).take overflow := by
  induction entries generalizing overflow with
  | nil => simp
  | cons first rest ih =>
      obtain ⟨fresh, distinct⟩ := List.nodup_cons.mp distinct
      cases overflow with
      | zero =>
          rw [List.take_zero, List.filter_eq_nil_iff]
          intro entry member
          rw [decide_eq_true_eq]
          exact not_not_intro member
      | succ overflow =>
          unfold evict
          split
          · rename_i ends
            have gone : first ∉ evict finished overflow rest := fun member =>
              fresh ((evict_sublist finished overflow rest).subset member)
            rw [List.filter_cons, if_pos (decide_eq_true gone), ih distinct, List.filter_cons,
              if_pos ends, List.take_succ_cons]
          · rename_i runs
            rw [List.filter_cons, if_neg (by simp), List.filter_cons, if_neg runs, ← ih distinct]
            refine List.filter_congr fun entry member => ?_
            have ne : entry ≠ first := fun same => fresh (same ▸ member)
            simp [ne]

end Evict

namespace TaskRegistry

/-- A call of `put`, and which of the records are finished when it is made. -/
structure Put where
  finished : Ref → Bool
  taskId : String
  ref : Ref

def step (registry : TaskRegistry) (call : Put) : TaskRegistry :=
  registry.put call.finished call.taskId call.ref

/-- The entries once the record has been written, before anything is evicted. -/
def assigned (registry : TaskRegistry) (call : Put) : OrderedDict String Ref :=
  registry.records.assign call.taskId call.ref

/-- By how many records the registry is then over its limit. -/
def overflow (registry : TaskRegistry) (call : Put) : Nat :=
  ((registry.assigned call).length - registry.max).toNat

/-- What a `put` does to the entries. -/
structure EvictsOldest (registry : TaskRegistry) (call : Put) : Prop where
  /-- The others keep their order. -/
  order : (registry.step call).records.Sublist (registry.assigned call)
  unfinished : ∀ entry ∈ registry.assigned call, call.finished entry.2 = false →
    entry ∈ (registry.step call).records
  bounded : ((registry.step call).size : Int) ≤
    Max.max registry.max ((registry.step call).unfinished call.finished)
  oldest : (registry.assigned call).filter
      (fun entry => decide (entry ∉ (registry.step call).records)) =
    ((registry.assigned call).filter fun entry => call.finished entry.2).take
      (registry.overflow call)

variable {registry : TaskRegistry} {call : Put}

@[simp]
theorem max_step : (registry.step call).max = registry.max := max_evictIfNeeded

theorem nodup_assigned : (registry.assigned call).Nodup :=
  List.Nodup.of_map Prod.fst (OrderedDict.nodup_keys_assign registry.distinct)

/-- With a limit, the scan runs whether or not the registry is over it. -/
theorem records_step (limited : 0 < registry.max) :
    (registry.step call).records =
      evict call.finished (registry.overflow call) (registry.assigned call) := by
  unfold step put evictIfNeeded overflow
  split
  · rename_i within
    have none : ((registry.assigned call).length - registry.max).toNat = 0 := by
      unfold assigned
      dsimp only at within
      omega
    rw [none]
    unfold assigned
    dsimp only
    cases registry.records.assign call.taskId call.ref <;> rfl
  · rfl

theorem evictsOldest_step (limited : 0 < registry.max) : registry.EvictsOldest call where
  order := by
    rw [records_step limited]
    exact evict_sublist _ _ _
  unfinished entry member unfinished := by
    rw [records_step limited]
    exact mem_evict_of_unfinished member unfinished
  bounded := by
    have bounded : Bounded call.finished (registry.step call) := bounded_put
    unfold Bounded at bounded
    rw [max_step] at bounded
    exact bounded limited
  oldest := by
    rw [records_step limited]
    exact filter_notMem_evict nodup_assigned

/-- Every call of a sequence of them evicts finished records only, the oldest first and as
many as the limit needs. -/
theorem puts_evict_oldest (max : Int) (limited : 0 < max) (calls : List Put) :
    StepsMeet step EvictsOldest { max := max } calls := by
  have allowed : StepsMeet step (fun _ _ => True) { max := max } calls :=
    stepsMeet_of_forall step _ fun _ _ => trivial
  exact stepsMeet_of_allowed step (fun registry => 0 < registry.max)
    (fun _ _ limited _ => by rwa [max_step])
    (fun _ _ limited _ => evictsOldest_step limited) limited allowed

/-- A finished record makes room for the second of two; the third finds none finished. -/
theorem puts_evict_oldest_three :
    StepsMeet step EvictsOldest { max := 1 }
      [⟨fun _ => false, "a", 0⟩, ⟨fun ref => ref = 0, "b", 1⟩, ⟨fun ref => ref = 0, "c", 2⟩] :=
  puts_evict_oldest 1 (by decide) _

end TaskRegistry

end YouMi.Gateway

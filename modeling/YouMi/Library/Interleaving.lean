import Mathlib.Data.List.Basic
import Mathlib.Logic.Function.Basic

/-!
# Processes that do not read each other

Each process of a group advances its own cell of a store in segments, and reads no
cell of another process of the group.  However the segments interleave, a store in
which all of the group have ended is the same.
-/

namespace YouMi.Library.Interleaving

variable {ι σ : Type*} [DecidableEq ι]

/-- A segment of a process; nothing happens once it has ended. -/
def segment (advance : ι → (ι → σ) → Option σ) (store : ι → σ) (i : ι) : ι → σ :=
  match advance i store with
  | none => store
  | some cell => Function.update store i cell

def interleave (advance : ι → (ι → σ) → Option σ) (store : ι → σ) (schedule : List ι) : ι → σ :=
  schedule.foldl (segment advance) store

def Ended (advance : ι → (ι → σ) → Option σ) (store : ι → σ) (i : ι) : Prop :=
  advance i store = none

/-- A process reads its own cell, and no other cell of the group. -/
def Independent (advance : ι → (ι → σ) → Option σ) (group : List ι) : Prop :=
  ∀ i ∈ group, ∀ store store', store i = store' i → (∀ j, j ∉ group → store j = store' j) →
    advance i store = advance i store'

section Segment

variable {advance : ι → (ι → σ) → Option σ} {store : ι → σ} {i j : ι}

theorem segment_of_ended (ended : Ended advance store i) : segment advance store i = store := by
  unfold segment
  rw [ended]

theorem segment_of_some {cell : σ} (advances : advance i store = some cell) :
    segment advance store i = Function.update store i cell := by
  unfold segment
  rw [advances]

/-- A segment changes no cell but its own. -/
theorem segment_of_ne (other : j ≠ i) : segment advance store i j = store j := by
  cases advances : advance i store with
  | none => rw [segment_of_ended advances]
  | some cell => rw [segment_of_some advances, Function.update_of_ne other]

@[simp]
theorem interleave_cons (rest : List ι) :
    interleave advance store (i :: rest) = interleave advance (segment advance store i) rest := rfl

theorem interleave_append (first second : List ι) :
    interleave advance store (first ++ second) =
      interleave advance (interleave advance store first) second :=
  List.foldl_append

/-- Cells of processes that are not scheduled stay as they are. -/
theorem interleave_of_not_mem {schedule : List ι} (other : j ∉ schedule) :
    interleave advance store schedule j = store j := by
  induction schedule generalizing store with
  | nil => rfl
  | cons i rest ih =>
      obtain ⟨apart, other⟩ := not_or.mp (mt List.mem_cons.mpr other)
      rw [interleave_cons, ih other, segment_of_ne apart]

theorem interleave_of_ended (ended : Ended advance store i) (n : Nat) :
    interleave advance store (List.replicate n i) = store := by
  induction n with
  | zero => rfl
  | succ n ih => rw [List.replicate_succ, interleave_cons, segment_of_ended ended, ih]

/-- Once a process has ended, more segments of it change nothing. -/
theorem interleave_replicate_eq {n m : Nat}
    (ends : Ended advance (interleave advance store (List.replicate n i)) i)
    (ends' : Ended advance (interleave advance store (List.replicate m i)) i) :
    interleave advance store (List.replicate n i) =
      interleave advance store (List.replicate m i) := by
  rcases Nat.le_total n m with less | less
  · obtain ⟨k, rfl⟩ := Nat.exists_eq_add_of_le less
    rw [← List.replicate_append_replicate, interleave_append, interleave_of_ended ends]
  · obtain ⟨k, rfl⟩ := Nat.exists_eq_add_of_le less
    rw [← List.replicate_append_replicate, interleave_append, interleave_of_ended ends']

end Segment

section Group

variable {advance : ι → (ι → σ) → Option σ} {group : List ι}

theorem segment_congr (independent : Independent advance group) {store store' : ι → σ} {i : ι}
    (member : i ∈ group) (own : store i = store' i)
    (outside : ∀ j, j ∉ group → store j = store' j) :
    segment advance store i i = segment advance store' i i := by
  have same := independent i member store store' own outside
  cases advances : advance i store with
  | none => rw [segment_of_ended advances, segment_of_ended (same.symm.trans advances), own]
  | some cell =>
      rw [segment_of_some advances, segment_of_some (same.symm.trans advances), Function.update_self,
        Function.update_self]

/-- The cell of a process depends only on how many segments it had. -/
theorem interleave_cell (independent : Independent advance group) {i : ι} (member : i ∈ group)
    {schedule : List ι} (inside : ∀ j ∈ schedule, j ∈ group) {store store' : ι → σ}
    (own : store i = store' i) (outside : ∀ j, j ∉ group → store j = store' j) :
    interleave advance store schedule i =
      interleave advance store' (List.replicate (schedule.count i) i) i := by
  induction schedule generalizing store store' with
  | nil => exact own
  | cons j rest ih =>
      obtain ⟨isMember, inside⟩ := List.forall_mem_cons.mp inside
      have left (store : ι → σ) (k : ι) (other : k ∉ group) :
          segment advance store j k = store k :=
        segment_of_ne fun same => other (same.symm ▸ isMember)
      rw [interleave_cons, List.count_cons]
      by_cases same : j = i
      · subst same
        rw [beq_self_eq_true, if_pos rfl, List.replicate_succ, interleave_cons]
        refine ih inside (segment_congr independent member own outside) fun k other => ?_
        rw [left store k other, left store' k other, outside k other]
      · rw [beq_false_of_ne same]
        refine ih inside ?_ fun k other => ?_
        · rw [segment_of_ne (Ne.symm same), own]
        · rw [left store k other, outside k other]

omit [DecidableEq ι] in
theorem ended_congr (independent : Independent advance group) {i : ι} (member : i ∈ group)
    {store store' : ι → σ} (own : store i = store' i)
    (outside : ∀ j, j ∉ group → store j = store' j) :
    Ended advance store i ↔ Ended advance store' i := by
  unfold Ended
  rw [independent i member store store' own outside]

/-- All interleavings that end the whole group give the same store. -/
theorem interleave_eq (independent : Independent advance group) {store : ι → σ}
    {first second : List ι} (inside : ∀ i ∈ first, i ∈ group) (inside' : ∀ i ∈ second, i ∈ group)
    (ends : ∀ i ∈ group, Ended advance (interleave advance store first) i)
    (ends' : ∀ i ∈ group, Ended advance (interleave advance store second) i) :
    interleave advance store first = interleave advance store second := by
  funext i
  by_cases member : i ∈ group
  · have solo {schedule : List ι} (within : ∀ j ∈ schedule, j ∈ group)
        (ended : Ended advance (interleave advance store schedule) i) :
        interleave advance store schedule i =
            interleave advance store (List.replicate (schedule.count i) i) i ∧
          Ended advance (interleave advance store (List.replicate (schedule.count i) i)) i := by
      have cell : interleave advance store schedule i =
          interleave advance store (List.replicate (schedule.count i) i) i :=
        interleave_cell independent member within rfl fun _ _ => rfl
      refine ⟨cell, (ended_congr independent member cell fun j other => ?_).mp ended⟩
      have apart : j ∉ List.replicate (schedule.count i) i := by
        intro repeated
        rw [List.eq_of_mem_replicate repeated] at other
        exact other member
      rw [interleave_of_not_mem fun scheduled => other (within j scheduled),
        interleave_of_not_mem apart]
    obtain ⟨cell, ended⟩ := solo inside (ends i member)
    obtain ⟨cell', ended'⟩ := solo inside' (ends' i member)
    rw [cell, cell', interleave_replicate_eq ended ended']
  · rw [interleave_of_not_mem fun scheduled => member (inside i scheduled),
      interleave_of_not_mem fun scheduled => member (inside' i scheduled)]

end Group

end YouMi.Library.Interleaving

import Mathlib.Logic.Basic

/-!
# Three-way comparison

Two versions of a value against their common base: they agree, one side kept the
base, or all three differ.  The comparison needs an equality that is an
equivalence only on the values that occur.
-/

namespace YouMi.Library

/-- What a three-way merge does with one value. -/
inductive Verdict where
  /-- Both sides have the same value. -/
  | agree
  /-- Ours is the base: take theirs. -/
  | takeTheirs
  /-- Theirs is the base: keep ours. -/
  | keepOurs
  /-- Both sides changed the base, and differently. -/
  | clash
  deriving DecidableEq, Repr

def Verdict.swap : Verdict → Verdict
  | .agree => .agree
  | .takeTheirs => .keepOurs
  | .keepOurs => .takeTheirs
  | .clash => .clash

variable {α : Type*} (same : α → α → Bool)

def verdict (base ours theirs : α) : Verdict :=
  if same ours theirs then .agree
  else if same base ours then .takeTheirs
  else if same base theirs then .keepOurs
  else .clash

/-- No two of the three values are the same. -/
def AllDiffer (base ours theirs : α) : Prop :=
  same base ours = false ∧ same base theirs = false ∧ same ours theirs = false

instance (base ours theirs : α) : Decidable (AllDiffer same base ours theirs) :=
  inferInstanceAs (Decidable (_ ∧ _ ∧ _))

variable {same}

theorem verdict_eq_clash_iff {base ours theirs : α} :
    verdict same base ours theirs = .clash ↔ AllDiffer same base ours theirs := by
  unfold verdict AllDiffer
  split
  · simp_all
  · split
    · simp_all
    · split <;> simp_all

theorem verdict_eq_agree_iff {base ours theirs : α} :
    verdict same base ours theirs = .agree ↔ same ours theirs = true := by
  unfold verdict
  split
  · simp_all
  · split
    · simp_all
    · split <;> simp_all

theorem verdict_eq_takeTheirs_iff {base ours theirs : α} :
    verdict same base ours theirs = .takeTheirs ↔
      same ours theirs = false ∧ same base ours = true := by
  unfold verdict
  split
  · simp_all
  · split
    · simp_all
    · split <;> simp_all

theorem verdict_eq_keepOurs_iff {base ours theirs : α} :
    verdict same base ours theirs = .keepOurs ↔
      same ours theirs = false ∧ same base ours = false ∧ same base theirs = true := by
  unfold verdict
  split
  · simp_all
  · split
    · simp_all
    · split <;> simp_all

/-- The relation is symmetric and transitive between values with the property. -/
structure SameOn (same : α → α → Bool) (P : α → Prop) : Prop where
  symm : ∀ {v w}, P v → P w → same v w = true → same w v = true
  trans : ∀ {u v w}, P u → P v → P w → same u v = true → same v w = true → same u w = true

namespace SameOn

variable {P : α → Prop} (equiv : SameOn same P) {base ours theirs : α}

include equiv

theorem comm {v w : α} (hv : P v) (hw : P w) : same v w = same w v := by
  rw [Bool.eq_iff_iff]
  exact ⟨equiv.symm hv hw, equiv.symm hw hv⟩

theorem allDiffer_swap (ho : P ours) (ht : P theirs) :
    AllDiffer same base theirs ours ↔ AllDiffer same base ours theirs := by
  unfold AllDiffer
  rw [equiv.comm ht ho]
  constructor
  · rintro ⟨first, second, third⟩
    exact ⟨second, first, third⟩
  · rintro ⟨first, second, third⟩
    exact ⟨second, first, third⟩

/-- Exchanging the sides exchanges the two one-sided verdicts. -/
theorem verdict_swap (hb : P base) (ho : P ours) (ht : P theirs) :
    verdict same base theirs ours = (verdict same base ours theirs).swap := by
  have sides := equiv.comm ht ho
  -- The base cannot equal both sides when these differ.
  have apart : same base ours = true → same base theirs = true → same ours theirs = true :=
    fun first second => equiv.trans ho hb ht (equiv.symm hb ho first) second
  unfold verdict
  rw [sides]
  cases hot : same ours theirs with
  | true => rfl
  | false =>
      cases hbo : same base ours with
      | false => cases same base theirs <;> rfl
      | true =>
          cases hbt : same base theirs with
          | false => rfl
          | true => exact absurd (apart hbo hbt) (by simp [hot])

end SameOn

end YouMi.Library

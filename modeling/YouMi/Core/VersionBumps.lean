import YouMi.Core.Versioning
import YouMi.Library.Runs

/-!
# Bumping a version again and again

`bump_for` reads a version, raises one part and writes the result, which is read again
by the next bump.  Below `1.0.0` a breaking change raises the second part only, so no
sequence of changes leaves the stage of the version it starts from.
-/

namespace YouMi.Core

open YouMi.Library

/-- `1.0.0` is where the stable stage begins. -/
theorem stageOf_eq_candidate_iff {version : String} (valid : isValidSemver version = true) :
    stageOf version = .candidate ↔ compareVersions version stableInitialVersion < 0 := by
  obtain ⟨v, parsed⟩ := exists_of_isValidSemver valid
  have first : parseSemver stableInitialVersion = some ⟨1, 0, 0⟩ := by decide
  rw [compareVersions_neg_iff, precedence_of_parse parsed, precedence_of_parse first,
    WithBot.coe_lt_coe, Semver.lt_iff, stageOf, parsed]
  by_cases stable : 1 ≤ v.major
  · simp only [if_pos stable]
    exact iff_of_false (by decide) (by omega)
  · simp only [if_neg stable]
    exact iff_of_true trivial (by omega)

section Bump

variable {version : String} (valid : isValidSemver version = true) (changeKind : String)
include valid

/-- A bumped version is greater. -/
theorem precedence_lt_bumpFor : precedence version < precedence (bumpFor version changeKind) := by
  obtain ⟨v, parsed⟩ := exists_of_isValidSemver valid
  obtain ⟨bumpType, read, _⟩ := parseSemver_bumpFor parsed changeKind
  rw [precedence_of_parse parsed, precedence_of_parse read, WithBot.coe_lt_coe]
  exact v.lt_bumped bumpType

/-- A bump stays on its side of `1.0.0`. -/
theorem stageOf_bumpFor : stageOf (bumpFor version changeKind) = stageOf version := by
  obtain ⟨v, parsed⟩ := exists_of_isValidSemver valid
  obtain ⟨bumpType, read, notMajor⟩ := parseSemver_bumpFor parsed changeKind
  have side : 1 ≤ (v.bumped bumpType).major ↔ 1 ≤ v.major := by
    by_cases zero : v.major = 0
    · rw [(Semver.bumped_major_eq_zero_iff zero bumpType).mpr (notMajor zero), zero]
    · cases bumpType with
      | major => simp only [Semver.bumped]; omega
      | minor => rfl
      | patch => rfl
  rw [stageOf, stageOf, read, parsed]
  simp only [side]

end Bump

/-! ## Sequences of changes -/

/-- The version after the first changes of a sequence. -/
def bumpedBy (version : String) (kinds : List String) (count : Nat) : String :=
  run bumpFor version (kinds.take count)

theorem bumpedBy_succ {version : String} {kinds : List String} {count : Nat}
    (more : count < kinds.length) :
    bumpedBy version kinds (count + 1) = bumpFor (bumpedBy version kinds count) kinds[count] := by
  unfold bumpedBy run
  rw [List.take_add_one, List.getElem?_eq_getElem more, Option.toList_some, List.foldl_append]
  rfl

/-- Every version of the sequence can be read, and has the stage of the first. -/
theorem bumpedBy_spec {version : String} (valid : isValidSemver version = true)
    (kinds : List String) (count : Nat) :
    isValidSemver (bumpedBy version kinds count) = true ∧
      stageOf (bumpedBy version kinds count) = stageOf version := by
  refine Reachable.invariant
    (fun bumped => isValidSemver bumped = true ∧ stageOf bumped = stageOf version)
    ⟨valid, rfl⟩ ?_ (.of_run version (kinds.take count))
  rintro bumped kind ⟨readable, stage⟩
  exact ⟨isValidSemver_bumpFor readable, (stageOf_bumpFor readable kind).trans stage⟩

/-- The versions of the sequence grow with each change. -/
theorem precedence_bumpedBy_lt {version : String} (valid : isValidSemver version = true)
    {kinds : List String} {first second : Nat} (less : first < second)
    (bound : second ≤ kinds.length) :
    precedence (bumpedBy version kinds first) < precedence (bumpedBy version kinds second) := by
  have climbs (count : Nat) (more : count < kinds.length) :
      precedence (bumpedBy version kinds count) <
        precedence (bumpedBy version kinds (count + 1)) := by
    rw [bumpedBy_succ more]
    exact precedence_lt_bumpFor (bumpedBy_spec valid kinds count).1 _
  induction second, less using Nat.le_induction with
  | base => exact climbs first bound
  | succ second _ ih => exact (ih (by omega)).trans (climbs second (by omega))

end YouMi.Core

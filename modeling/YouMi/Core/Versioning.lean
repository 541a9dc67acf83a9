import Mathlib.Data.Prod.Lex
import Mathlib.Order.WithBot
import YouMi.Python.Text

/-!
# Version policy

`MAJOR.MINOR.PATCH` version strings: reading, comparing, the candidate and the
stable stage, initial versions by origin, and the two functions that bump a
version.  Version strings are compared by what `parse_semver` reads from them,
so different strings can be the same version.
-/

namespace YouMi.Core

open YouMi.Python

inductive ToolOrigin where
  | external
  | generated
  deriving DecidableEq, Repr

inductive VersionStage where
  /-- `0.x.y`. -/
  | candidate
  /-- From `1.0.0` on. -/
  | stable
  deriving DecidableEq, Repr

/-- A version as `parse_semver` reads it. -/
structure Semver where
  major : Nat
  minor : Nat
  patch : Nat
  deriving DecidableEq, Repr

/-- The order of the parts as a tuple. -/
def Semver.parts (v : Semver) : ℕ ×ₗ ℕ ×ₗ ℕ := toLex (v.major, toLex (v.minor, v.patch))

theorem Semver.parts_injective : Function.Injective Semver.parts := by
  rintro ⟨a, b, c⟩ ⟨a', b', c'⟩ same
  obtain ⟨rfl, inner⟩ := Prod.mk.inj (toLex.injective same)
  obtain ⟨rfl, rfl⟩ := Prod.mk.inj (toLex.injective inner)
  rfl

instance : LinearOrder Semver := LinearOrder.lift' Semver.parts Semver.parts_injective

theorem Semver.lt_iff {v w : Semver} :
    v < w ↔ v.major < w.major ∨
      v.major = w.major ∧ (v.minor < w.minor ∨ v.minor = w.minor ∧ v.patch < w.patch) := by
  change v.parts < w.parts ↔ _
  unfold Semver.parts
  rw [Prod.Lex.toLex_lt_toLex, Prod.Lex.toLex_lt_toLex]

def generatedInitialVersion : String := "0.0.1"

def stableInitialVersion : String := "1.0.0"

/-- The successes in a row after which a candidate may be promoted. -/
def promotionMinSuccesses : Nat := 3

def promotionMaxFailures : Nat := 0

/-- The attempts to fix a tool before a human is asked. -/
def autoFixMaxAttempts : Nat := 3

def isPromotionEligible (successCount failureCount : Nat) : Bool :=
  promotionMinSuccesses ≤ successCount && failureCount ≤ promotionMaxFailures

/-! ## Reading and comparing -/

/-- Three parts between dots, each read by `int()`. -/
def readParts (text : List Char) : Option (Int × Int × Int) :=
  match text.splitOn '.' with
  | [first, second, third] =>
      (parseInt first).bind fun major =>
        (parseInt second).bind fun minor =>
          (parseInt third).map fun patch => (major, minor, patch)
  | _ => none

def parseSemver (version : String) : Option Semver :=
  match readParts (trim isSpace version.toList) with
  | some (.ofNat major, .ofNat minor, .ofNat patch) => some ⟨major, minor, patch⟩
  | _ => none

def isValidSemver (version : String) : Bool := (parseSemver version).isSome

/-- `-1`, `0` or `1`; an invalid version is below every valid one. -/
def compareVersions (left right : String) : Int :=
  match parseSemver left, parseSemver right with
  | none, none => 0
  | none, some _ => -1
  | some _, none => 1
  | some l, some r => if r < l then 1 else if l < r then -1 else 0

/-- Where a version string stands in the order of `compare_versions`. -/
def precedence (version : String) : WithBot Semver :=
  match parseSemver version with
  | none => ⊥
  | some v => v

/-! ## Origin and stage -/

/-- An unknown origin counts as generated. -/
def normalizeOrigin (origin : Option String) : ToolOrigin :=
  if origin = some "external" then .external else .generated

def initialVersion : ToolOrigin → String
  | .external => stableInitialVersion
  | .generated => generatedInitialVersion

def resolveInitialVersion (declared : String) (origin : ToolOrigin) : String :=
  if origin = .external ∧ (declared = "" ∨ declared = generatedInitialVersion) then
    stableInitialVersion
  else if declared = "" then initialVersion origin
  else if isValidSemver declared then declared
  else initialVersion origin

def stageOf (version : String) : VersionStage :=
  match parseSemver version with
  | none => .candidate
  | some v => if 1 ≤ v.major then .stable else .candidate

def isStable (version : String) : Bool := stageOf version = .stable

/-! ## Bumping -/

/-- The position that is raised. -/
inductive BumpType where
  | major
  | minor
  | patch
  deriving DecidableEq, Repr

/-- The `bump` argument: what is neither `major` nor `minor` raises the patch. -/
def BumpType.ofText (bump : String) : BumpType :=
  if bump = "major" then .major else if bump = "minor" then .minor else .patch

/-- The position a kind of change raises; an unknown kind counts as a fix. -/
def bumpTypeFor (changeKind : String) : BumpType :=
  if changeKind = "breaking" then .major else if changeKind = "feature" then .minor else .patch

def formatVersion (major minor patch : Int) : String :=
  toString major ++ "." ++ toString minor ++ "." ++ toString patch

/-- The parts with one position raised and those after it at zero. -/
def raise : BumpType → Int → Int → Int → String
  | .major, major, _, _ => formatVersion (major + 1) 0 0
  | .minor, major, minor, _ => formatVersion major (minor + 1) 0
  | .patch, major, minor, patch => formatVersion major minor (patch + 1)

def bumpFor (current changeKind : String) : String :=
  match parseSemver current with
  | none => generatedInitialVersion
  | some v =>
      let bumpType := bumpTypeFor changeKind
      let bumpType := if bumpType = .major ∧ v.major = 0 then .minor else bumpType
      raise bumpType v.major v.minor v.patch

/-- `bump_version` of `core/tool.py`: the text is split as it stands, without `strip`. -/
def bumpVersion (current bump : String) : String :=
  match readParts current.toList with
  | none => "0.0.1"
  | some (major, minor, patch) => raise (BumpType.ofText bump) major minor patch

/-! ## Comparing by precedence -/

theorem compareVersions_pos_iff {left right : String} :
    0 < compareVersions left right ↔ precedence right < precedence left := by
  unfold compareVersions precedence
  cases parseSemver left with
  | none => cases parseSemver right <;> simp
  | some l =>
      cases parseSemver right with
      | none => simp
      | some r =>
          simp only [WithBot.coe_lt_coe]
          split
          · simp_all
          · split <;> simp_all

theorem compareVersions_nonpos_iff {left right : String} :
    compareVersions left right ≤ 0 ↔ precedence left ≤ precedence right := by
  rw [← not_lt, compareVersions_pos_iff, not_lt]

/-- Comparing the other way round gives the opposite sign. -/
theorem compareVersions_swap (left right : String) :
    compareVersions right left = -compareVersions left right := by
  unfold compareVersions
  cases parseSemver left with
  | none => cases parseSemver right <;> rfl
  | some l =>
      cases parseSemver right with
      | none => rfl
      | some r =>
          dsimp only
          rcases lt_trichotomy l r with less | rfl | greater
          · simp [less, less.asymm]
          · simp
          · simp [greater, greater.asymm]

theorem compareVersions_neg_iff {left right : String} :
    compareVersions left right < 0 ↔ precedence left < precedence right := by
  rw [← compareVersions_pos_iff, compareVersions_swap left right]
  omega

theorem compareVersions_self (version : String) : compareVersions version version = 0 := by
  have swapped := compareVersions_swap version version
  omega

theorem precedence_of_parse {version : String} {v : Semver} (parsed : parseSemver version = some v) :
    precedence version = v := by
  rw [precedence, parsed]

theorem exists_of_isValidSemver {version : String} (valid : isValidSemver version = true) :
    ∃ v, parseSemver version = some v :=
  Option.isSome_iff_exists.mp valid

/-! ## What is read -/

theorem not_mem_of_mem_splitOn {text piece : List Char} {separator : Char}
    (member : piece ∈ text.splitOn separator) : separator ∉ piece := by
  induction text generalizing piece with
  | nil =>
      rw [List.splitOn_nil, List.mem_singleton] at member
      rw [member]
      exact List.not_mem_nil
  | cons c rest ih =>
      rw [List.splitOn_cons_eq_if_modifyHead] at member
      split at member
      · rcases List.mem_cons.mp member with rfl | later
        · exact List.not_mem_nil
        · exact ih later
      · rename_i other
        obtain ⟨head, tail, pieces⟩ := List.exists_cons_of_ne_nil (List.splitOn_ne_nil separator rest)
        rw [pieces, List.modifyHead_cons] at member
        rw [pieces] at ih
        rcases List.mem_cons.mp member with rfl | later
        · rintro (_ | ⟨_, inside⟩)
          · exact other (beq_self_eq_true _)
          · exact ih List.mem_cons_self inside
        · exact ih (List.mem_cons_of_mem _ later)

theorem readParts_eq_some_iff {text : List Char} {parts : Int × Int × Int} :
    readParts text = some parts ↔
      ∃ first second third, text = first ++ '.' :: (second ++ '.' :: third) ∧
        ('.' ∉ first ∧ '.' ∉ second ∧ '.' ∉ third) ∧
        parseInt first = some parts.1 ∧ parseInt second = some parts.2.1 ∧
        parseInt third = some parts.2.2 := by
  obtain ⟨major, minor, patch⟩ := parts
  constructor
  · intro read
    unfold readParts at read
    split at read
    · rename_i first second third pieces
      have without (piece : List Char) (member : piece ∈ [first, second, third]) :
          '.' ∉ piece := not_mem_of_mem_splitOn (pieces ▸ member)
      have whole : text = ['.'].intercalate (text.splitOn '.') :=
        (List.intercalate_splitOn '.').symm
      rw [pieces] at whole
      simp only [Option.bind_eq_some_iff, Option.map_eq_some_iff, Prod.mk.injEq] at read
      obtain ⟨_, one, _, two, _, three, rfl, rfl, rfl⟩ := read
      refine ⟨first, second, third, by simpa [List.intercalate] using whole, ⟨?_, ?_, ?_⟩,
        one, two, three⟩
      · exact without first (by simp)
      · exact without second (by simp)
      · exact without third (by simp)
    · cases read
  · rintro ⟨first, second, third, rfl, ⟨one, two, three⟩, readFirst, readSecond, readThird⟩
    unfold readParts
    rw [List.splitOn_append_cons_self_of_not_mem one,
      List.splitOn_append_cons_self_of_not_mem two, List.splitOn_eq_singleton three]
    simp [readFirst, readSecond, readThird]

/-- What is read from a text is also read from the text stripped of outer white space. -/
theorem readParts_strip {text : List Char} {parts : Int × Int × Int}
    (read : readParts text = some parts) : readParts (trim isSpace text) = some parts := by
  obtain ⟨first, second, third, rfl, ⟨one, two, three⟩, readFirst, readSecond, readThird⟩ :=
    readParts_eq_some_iff.mp read
  rw [trim_between (by decide), readParts_eq_some_iff]
  refine ⟨_, second, _, rfl, ⟨?_, two, ?_⟩, ?_, readSecond, ?_⟩
  · exact fun member => one ((List.dropWhile_suffix _).subset member)
  · intro member
    exact three (List.mem_reverse.mp
      ((List.dropWhile_suffix _).subset (List.mem_reverse.mp member)))
  · rw [← readFirst, parseInt_congr_trim]
    have agree (c : Char) (member : c ∈ first) : isSpace c = isIntSpace c :=
      isSpace_eq_isIntSpace (intChar_of_parseInt (by rw [readFirst]; rfl) member)
    rw [dropWhile_congr agree, trim_dropWhile]
  · rw [← readThird, parseInt_congr_trim]
    have agree (c : Char) (member : c ∈ third.reverse) : isSpace c = isIntSpace c :=
      isSpace_eq_isIntSpace
        (intChar_of_parseInt (by rw [readThird]; rfl) (List.mem_reverse.mp member))
    rw [dropWhile_congr agree, trim_dropWhile_end]

/-! ## Versions that are written -/

theorem toList_toString_nat (n : Nat) : (toString (n : Int)).toList = Nat.toDigits 10 n := by
  change (Nat.repr n).toList = _
  rw [Nat.repr_eq_ofList_toDigits, String.toList_ofList]

theorem isDigit_of_mem_toDigits {n : Nat} {c : Char} (member : c ∈ Nat.toDigits 10 n) :
    c.isDigit :=
  Nat.isDigit_of_mem_toDigits (by decide) (by decide) member

theorem readParts_format (major minor patch : Nat) :
    readParts (formatVersion major minor patch).toList =
      some ((major : Int), (minor : Int), (patch : Int)) := by
  have dot (n : Nat) : '.' ∉ Nat.toDigits 10 n := fun member =>
    absurd (isDigit_of_mem_toDigits member) (by decide)
  refine readParts_eq_some_iff.mpr ⟨_, _, _, ?_, ⟨dot major, dot minor, dot patch⟩,
    parseInt_toDigits major, parseInt_toDigits minor, parseInt_toDigits patch⟩
  simp only [formatVersion, String.toList_append, toList_toString_nat, List.append_assoc]
  rfl

/-- A written version is read back. -/
theorem parseSemver_format (major minor patch : Nat) :
    parseSemver (formatVersion major minor patch) = some ⟨major, minor, patch⟩ := by
  rw [parseSemver, readParts_strip (readParts_format major minor patch)]

def Semver.bumped (v : Semver) : BumpType → Semver
  | .major => ⟨v.major + 1, 0, 0⟩
  | .minor => ⟨v.major, v.minor + 1, 0⟩
  | .patch => ⟨v.major, v.minor, v.patch + 1⟩

theorem Semver.lt_bumped (v : Semver) (bumpType : BumpType) : v < v.bumped bumpType := by
  rw [Semver.lt_iff]
  cases bumpType <;> simp [Semver.bumped]

theorem BumpType.ofText_eq_major_iff {bump : String} :
    BumpType.ofText bump = .major ↔ bump = "major" := by
  unfold BumpType.ofText
  split
  · simp_all
  · split <;> simp_all

/-- From `0.x.y`, only raising the major part leaves `0.x.y`. -/
theorem Semver.bumped_major_eq_zero_iff {v : Semver} (zero : v.major = 0) (bumpType : BumpType) :
    (v.bumped bumpType).major = 0 ↔ bumpType ≠ .major := by
  cases bumpType <;> simp [Semver.bumped, zero]

/-- Raising the last part gives the next greater version. -/
theorem Semver.lt_bumped_patch_iff {v w : Semver} : w < v.bumped .patch ↔ w ≤ v := by
  rw [← not_lt, Semver.lt_iff, Semver.lt_iff]
  simp only [Semver.bumped]
  omega

theorem parseSemver_raise (v : Semver) (bumpType : BumpType) :
    parseSemver (raise bumpType v.major v.minor v.patch) = some (v.bumped bumpType) := by
  cases bumpType with
  | major => exact parseSemver_format (v.major + 1) 0 0
  | minor => exact parseSemver_format v.major (v.minor + 1) 0
  | patch => exact parseSemver_format v.major v.minor (v.patch + 1)

/-- What `bump_for` writes for a readable version. -/
theorem parseSemver_bumpFor {current : String} {v : Semver}
    (parsed : parseSemver current = some v) (changeKind : String) :
    ∃ bumpType, parseSemver (bumpFor current changeKind) = some (v.bumped bumpType) ∧
      (v.major = 0 → bumpType ≠ .major) := by
  rw [bumpFor, parsed]
  dsimp only
  split
  · exact ⟨.minor, parseSemver_raise v .minor, by simp⟩
  · rename_i allowed
    exact ⟨_, parseSemver_raise v _, fun zero isMajor => allowed ⟨isMajor, zero⟩⟩

/-- A fix raises the patch. -/
theorem parseSemver_bumpFor_fix {current : String} {v : Semver}
    (parsed : parseSemver current = some v) :
    parseSemver (bumpFor current "fix") = some (v.bumped .patch) := by
  rw [bumpFor, parsed]
  exact parseSemver_raise v .patch

/-- `bump_version` reads the text as it stands. -/
def Readable (version : String) : Prop := (readParts version.toList).isSome

instance (version : String) : Decidable (Readable version) :=
  inferInstanceAs (Decidable (_ = true))

theorem readParts_of_readable {version : String} {v : Semver}
    (parsed : parseSemver version = some v) (readable : Readable version) :
    readParts version.toList = some ((v.major : Int), (v.minor : Int), (v.patch : Int)) := by
  obtain ⟨parts, read⟩ := Option.isSome_iff_exists.mp readable
  rw [parseSemver, readParts_strip read] at parsed
  rw [read]
  split at parsed
  · rename_i same
    cases parsed
    exact same
  · cases parsed

theorem bumpVersion_of_readable {current bump : String} {v : Semver}
    (parsed : parseSemver current = some v) (readable : Readable current) :
    parseSemver (bumpVersion current bump) = some (v.bumped (BumpType.ofText bump)) := by
  rw [bumpVersion, readParts_of_readable parsed readable]
  exact parseSemver_raise v _

theorem bumpVersion_of_not_readable {current bump : String} (not_readable : ¬ Readable current) :
    bumpVersion current bump = "0.0.1" := by
  rw [Readable, Option.not_isSome_iff_eq_none] at not_readable
  rw [bumpVersion, not_readable]

/-- A version that was written is read the same way by both functions. -/
theorem readable_format (major minor patch : Nat) :
    Readable (formatVersion major minor patch) := by
  rw [Readable, readParts_format]
  rfl

theorem readable_raise (v : Semver) (bumpType : BumpType) :
    Readable (raise bumpType v.major v.minor v.patch) := by
  cases bumpType with
  | major => exact readable_format (v.major + 1) 0 0
  | minor => exact readable_format v.major (v.minor + 1) 0
  | patch => exact readable_format v.major v.minor (v.patch + 1)

theorem isValidSemver_bumpVersion {current bump : String} (valid : isValidSemver current = true) :
    isValidSemver (bumpVersion current bump) = true := by
  obtain ⟨v, parsed⟩ := exists_of_isValidSemver valid
  by_cases readable : Readable current
  · rw [isValidSemver, bumpVersion_of_readable parsed readable]
    rfl
  · rw [bumpVersion_of_not_readable readable]
    decide

theorem isValidSemver_bumpFor {current changeKind : String} (valid : isValidSemver current = true) :
    isValidSemver (bumpFor current changeKind) = true := by
  obtain ⟨v, parsed⟩ := exists_of_isValidSemver valid
  obtain ⟨bumpType, read, _⟩ := parseSemver_bumpFor parsed changeKind
  rw [isValidSemver, read]
  rfl

theorem isValidSemver_initialVersion (origin : ToolOrigin) :
    isValidSemver (initialVersion origin) = true := by
  cases origin <;> decide

/-- The version a tool is stored under is valid whatever was declared. -/
theorem isValidSemver_resolveInitialVersion (declared : String) (origin : ToolOrigin) :
    isValidSemver (resolveInitialVersion declared origin) = true := by
  unfold resolveInitialVersion
  split
  · decide
  · split
    · exact isValidSemver_initialVersion origin
    · split
      · assumption
      · exact isValidSemver_initialVersion origin

/-- A version that was resolved is resolved to itself. -/
theorem resolveInitialVersion_resolved (declared : String) (origin : ToolOrigin) :
    resolveInitialVersion (resolveInitialVersion declared origin) origin =
      resolveInitialVersion declared origin := by
  have keeps {version : String} (valid : isValidSemver version = true)
      (notRaised : ¬ (origin = .external ∧ (version = "" ∨ version = generatedInitialVersion))) :
      resolveInitialVersion version origin = version := by
    have nonempty : version ≠ "" := by
      rintro rfl
      exact absurd valid (by decide)
    unfold resolveInitialVersion
    rw [if_neg notRaised, if_neg nonempty, if_pos valid]
  refine keeps (isValidSemver_resolveInitialVersion declared origin) ?_
  rintro ⟨rfl, raised⟩
  unfold resolveInitialVersion at raised
  split at raised
  · exact absurd raised (by decide)
  · rename_i declaredElse
    split at raised
    · exact absurd raised (by decide)
    · split at raised
      · exact declaredElse ⟨rfl, raised⟩
      · exact absurd raised (by decide)

theorem isStable_iff {version : String} {v : Semver} (parsed : parseSemver version = some v) :
    isStable version = true ↔ 1 ≤ v.major := by
  rw [isStable, stageOf, parsed]
  by_cases stable : 1 ≤ v.major <;> simp [stable]

theorem isStable_eq_false_iff {version : String} {v : Semver}
    (parsed : parseSemver version = some v) : isStable version = false ↔ v.major = 0 := by
  rw [← Bool.not_eq_true, isStable_iff parsed, Nat.not_le, Nat.lt_one_iff]

/-- Valid versions contain neither of the characters that separate the parts of a row identifier. -/
theorem no_separator_of_valid {version : String} (valid : isValidSemver version = true) :
    '@' ∉ version.toList ∧ '/' ∉ version.toList := by
  obtain ⟨v, parsed⟩ := exists_of_isValidSemver valid
  have apart : ∀ c ∈ version.toList, c ≠ '@' ∧ c ≠ '/' := by
    intro c member
    by_cases space : isSpace c = true
    · constructor <;> rintro rfl <;> exact absurd space (by decide)
    have inside := mem_trim_of_not member (by simpa using space)
    unfold parseSemver at parsed
    split at parsed
    · rename_i read
      obtain ⟨first, second, third, shape, _, one, two, three⟩ := readParts_eq_some_iff.mp read
      rw [shape] at inside
      simp only [List.mem_append, List.mem_cons] at inside
      have number {text : List Char} {n : Int} (accepted : parseInt text = some n)
          (member : c ∈ text) : c ≠ '@' ∧ c ≠ '/' :=
        intChar_ne_separator (intChar_of_parseInt (by rw [accepted]; rfl) member)
      rcases inside with inFirst | rfl | inSecond | rfl | inThird
      · exact number one inFirst
      · decide
      · exact number two inSecond
      · decide
      · exact number three inThird
    · cases parsed
  exact ⟨fun member => (apart _ member).1 rfl, fun member => (apart _ member).2 rfl⟩

end YouMi.Core

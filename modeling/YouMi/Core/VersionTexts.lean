import YouMi.Core.Versioning
import YouMi.Python.IntLiteral

/-!
# Which texts are versions

`parse_semver` strips a text, splits it at the dots and reads the parts with `int()`,
which takes more than decimal numbers: white space, a sign, underscores, digits of other
scripts and leading zeros.  So a version has many spellings, of which one is canonical.
-/

namespace YouMi.Core

open YouMi.Python

/-- A decimal number in ASCII digits, without a superfluous zero in front. -/
def StrictNumber (text : List Char) : Prop :=
  text ≠ [] ∧ (∀ c ∈ text, c.isDigit) ∧ (text.head? = some '0' → text = ['0'])

/-- `MAJOR.MINOR.PATCH` -/
def StrictVersion (version : String) : Prop :=
  ∃ major minor patch, version.toList = major ++ '.' :: (minor ++ '.' :: patch) ∧
    StrictNumber major ∧ StrictNumber minor ∧ StrictNumber patch

/-- The text spells the version: three integer literals between dots, in white space. -/
def Spells (version : String) (v : Semver) : Prop :=
  ∃ before major minor patch after,
    version.toList = before ++ ((major ++ '.' :: (minor ++ '.' :: patch)) ++ after) ∧
      (∀ c ∈ before, isSpace c = true) ∧ (∀ c ∈ after, isSpace c = true) ∧
      IntLiteral major v.major ∧ IntLiteral minor v.minor ∧ IntLiteral patch v.patch

/-- The canonical spelling. -/
def Semver.text (v : Semver) : String := formatVersion v.major v.minor v.patch

/-- The text is no spelling of a version, or the canonical one. -/
def Plain (version : String) : Prop := ∀ v, Spells version v → version = v.text

/-! ## The accepted language -/

/-- `parse_semver` accepts the spellings of versions, and reads the versions they spell. -/
theorem parseSemver_eq_some_iff {version : String} {v : Semver} :
    parseSemver version = some v ↔ Spells version v := by
  constructor
  · intro parsed
    obtain ⟨before, after, whole, left, right⟩ := exists_trim isSpace version.toList
    unfold parseSemver at parsed
    split at parsed
    · rename_i read
      cases parsed
      obtain ⟨major, minor, patch, shape, _, one, two, three⟩ := readParts_eq_some_iff.mp read
      rw [shape] at whole
      exact ⟨before, major, minor, patch, after, whole, left, right,
        parseInt_eq_some_iff.mp one, parseInt_eq_some_iff.mp two, parseInt_eq_some_iff.mp three⟩
    · cases parsed
  · rintro ⟨before, major, minor, patch, after, whole, left, right, one, two, three⟩
    have read : readParts (major ++ '.' :: (minor ++ '.' :: patch)) =
        some ((v.major : Int), (v.minor : Int), (v.patch : Int)) :=
      readParts_eq_some_iff.mpr ⟨major, minor, patch, rfl,
        ⟨one.not_mem_dot, two.not_mem_dot, three.not_mem_dot⟩, parseInt_eq_some_iff.mpr one,
        parseInt_eq_some_iff.mpr two, parseInt_eq_some_iff.mpr three⟩
    rw [parseSemver, whole, trim_pad _ left right, readParts_strip read]

theorem isValidSemver_iff {version : String} :
    isValidSemver version = true ↔ ∃ v, Spells version v := by
  rw [isValidSemver, Option.isSome_iff_exists]
  exact exists_congr fun v => parseSemver_eq_some_iff

theorem spells_text (v : Semver) : Spells v.text v :=
  parseSemver_eq_some_iff.mp (parseSemver_format v.major v.minor v.patch)

/-! ## Canonical spellings -/

/-- Only the numeral of zero begins with a zero. -/
theorem head?_toDigits {n : Nat} (positive : 0 < n) : (Nat.toDigits 10 n).head? ≠ some '0' := by
  induction n using Nat.strong_induction_on with
  | _ n ih =>
    rw [Nat.toDigits_eq_if (by decide)]
    split
    · rename_i small
      rw [List.head?_cons, ne_eq, Option.some.injEq]
      intro zero
      have code := congrArg Char.toNat zero
      rw [Nat.toNat_digitChar_of_lt_ten small] at code
      change 48 + n = 48 at code
      omega
    · rename_i large
      rw [List.head?_append_of_ne_nil _ Nat.toDigits_ne_nil]
      exact ih (n / 10) (by omega) (by omega)

theorem digitChar_of_isDigit {c : Char} (digit : c.isDigit) :
    c.toNat - '0'.toNat < 10 ∧ Nat.digitChar (c.toNat - '0'.toNat) = c := by
  simp only [Char.isDigit, Bool.and_eq_true, decide_eq_true_eq] at digit
  have lower : 48 ≤ c.toNat := digit.1
  have upper : c.toNat ≤ 57 := digit.2
  have small : c.toNat - '0'.toNat < 10 := by
    change c.toNat - 48 < 10
    omega
  refine ⟨small, Char.toNat_inj.mp ?_⟩
  rw [Nat.toNat_digitChar_of_lt_ten small]
  change 48 + (c.toNat - 48) = c.toNat
  omega

/-- Digits after a numeral continue it. -/
theorem toDigits_append_digits {n : Nat} (positive : 0 < n) {rest : List Char}
    (digits : ∀ c ∈ rest, c.isDigit) :
    Nat.toDigits 10 n ++ rest = Nat.toDigits 10 (Nat.ofDigitChars 10 rest n) := by
  induction rest generalizing n with
  | nil => simp
  | cons c rest ih =>
      obtain ⟨small, same⟩ := digitChar_of_isDigit (digits c List.mem_cons_self)
      have longer : Nat.toDigits 10 n ++ [c] =
          Nat.toDigits 10 (10 * n + (c.toNat - '0'.toNat)) := by
        rw [← Nat.toDigits_append_toDigits (by decide) positive small,
          Nat.toDigits_of_lt_base small, same]
      rw [List.append_cons, longer, Nat.ofDigitChars_cons]
      exact ih (by omega) fun d member => digits d (List.mem_cons_of_mem c member)

/-- The strict numbers are the numerals that are written. -/
theorem strictNumber_iff {text : List Char} :
    StrictNumber text ↔ ∃ n, text = Nat.toDigits 10 n := by
  constructor
  · rintro ⟨nonempty, digits, noZero⟩
    cases text with
    | nil => exact absurd rfl nonempty
    | cons c rest =>
        obtain ⟨small, same⟩ := digitChar_of_isDigit (digits c List.mem_cons_self)
        by_cases zero : c = '0'
        · rw [zero] at noZero
          exact ⟨0, by rw [zero, noZero rfl]; rfl⟩
        · have positive : 0 < c.toNat - '0'.toNat := by
            refine Nat.pos_of_ne_zero fun none => zero ?_
            rw [← same, none]
            rfl
          refine ⟨Nat.ofDigitChars 10 rest (c.toNat - '0'.toNat), ?_⟩
          rw [← toDigits_append_digits positive
            (fun d member => digits d (List.mem_cons_of_mem c member)),
            Nat.toDigits_of_lt_base small, same]
          rfl
  · rintro ⟨n, rfl⟩
    refine ⟨Nat.toDigits_ne_nil, fun c => isDigit_of_mem_toDigits, fun zero => ?_⟩
    rcases Nat.eq_zero_or_pos n with rfl | positive
    · rfl
    · exact absurd zero (head?_toDigits positive)

theorem toList_text (v : Semver) : v.text.toList =
    Nat.toDigits 10 v.major ++ '.' :: (Nat.toDigits 10 v.minor ++ '.' ::
      Nat.toDigits 10 v.patch) := by
  simp only [Semver.text, formatVersion, String.toList_append, toList_toString_nat,
    List.append_assoc]
  rfl

theorem strictVersion_iff {version : String} :
    StrictVersion version ↔ ∃ v : Semver, version = v.text := by
  constructor
  · rintro ⟨major, minor, patch, whole, one, two, three⟩
    obtain ⟨a, rfl⟩ := strictNumber_iff.mp one
    obtain ⟨b, rfl⟩ := strictNumber_iff.mp two
    obtain ⟨c, rfl⟩ := strictNumber_iff.mp three
    exact ⟨⟨a, b, c⟩, String.toList_injective (whole.trans (toList_text ⟨a, b, c⟩).symm)⟩
  · rintro ⟨v, rfl⟩
    exact ⟨_, _, _, toList_text v, strictNumber_iff.mpr ⟨_, rfl⟩, strictNumber_iff.mpr ⟨_, rfl⟩,
      strictNumber_iff.mpr ⟨_, rfl⟩⟩

/-! ## When a text is read as it should be -/

theorem plain_iff {version : String} :
    Plain version ↔ (isValidSemver version = true ↔ StrictVersion version) := by
  rw [isValidSemver_iff, strictVersion_iff]
  constructor
  · intro plain
    refine ⟨fun ⟨v, spelled⟩ => ⟨v, plain v spelled⟩, ?_⟩
    rintro ⟨v, rfl⟩
    exact ⟨v, spells_text v⟩
  · intro accepts v spelled
    obtain ⟨w, rfl⟩ := accepts.mp ⟨v, spelled⟩
    have same := (parseSemver_eq_some_iff.mpr (spells_text w)).symm.trans
      (parseSemver_eq_some_iff.mpr spelled)
    rw [Option.some.inj same]

theorem compareVersions_eq_zero_iff {left right : String} :
    compareVersions left right = 0 ↔ precedence left = precedence right := by
  have upper := @compareVersions_nonpos_iff left right
  have lower := @compareVersions_neg_iff left right
  constructor
  · intro zero
    exact eq_of_le_of_not_lt (upper.mp zero.le) fun less => (lower.mpr less).ne zero
  · intro same
    have atMost := upper.mpr same.le
    have notLess := mt lower.mp same.not_lt
    omega

/-- Two texts are read as they should be: strict versions are accepted, and only these, and
they are the same version only if they are the same text. -/
def ReadStrictly (first second : String) : Prop :=
  (isValidSemver first = true ↔ StrictVersion first) ∧
    (isValidSemver second = true ↔ StrictVersion second) ∧
    (isValidSemver first = true → isValidSemver second = true →
      compareVersions first second = 0 → first = second)

end YouMi.Core

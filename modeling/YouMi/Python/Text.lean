import Mathlib.Data.List.DropRight
import Mathlib.Tactic.ByContra

/-!
# Python text

`str.strip`, `str.split` and the decimal reading of `int()` on text, as lists of
code points.  The two notions of white space differ: `strip` drops the separators
`U+001C` to `U+001F`, which `int()` does not accept.  Integers have no bound; the
interpreter's configurable limit on the digits `int()` reads is a bound on
resources, like memory, and is not modelled.
-/

namespace YouMi.Python

def isSpaceCode (n : Nat) : Bool :=
  (9 ≤ n && n ≤ 13) || (28 ≤ n && n ≤ 32) || n == 0x85 || n == 0xA0 || n == 0x1680 ||
    (0x2000 ≤ n && n ≤ 0x200A) || n == 0x2028 || n == 0x2029 || n == 0x202F ||
    n == 0x205F || n == 0x3000

/-- White space for `str.strip` and `str.split`. -/
def isSpace (c : Char) : Bool := isSpaceCode c.toNat

/-- White space that `int()` skips around a number. -/
def isIntSpace (c : Char) : Bool := isSpace c && !(28 ≤ c.toNat && c.toNat ≤ 31)

/-- The zeros of the runs of ten decimal digits (Unicode category `Nd`). -/
def decimalZeros : List Nat :=
  [0x30, 0x660, 0x6F0, 0x7C0, 0x966, 0x9E6, 0xA66, 0xAE6, 0xB66, 0xBE6, 0xC66, 0xCE6,
   0xD66, 0xDE6, 0xE50, 0xED0, 0xF20, 0x1040, 0x1090, 0x17E0, 0x1810, 0x1946, 0x19D0,
   0x1A80, 0x1A90, 0x1B50, 0x1BB0, 0x1C40, 0x1C50, 0xA620, 0xA8D0, 0xA900, 0xA9D0,
   0xA9F0, 0xAA50, 0xABF0, 0xFF10, 0x104A0, 0x10D30, 0x11066, 0x110F0, 0x11136,
   0x111D0, 0x112F0, 0x11450, 0x114D0, 0x11650, 0x116C0, 0x11730, 0x118E0, 0x11950,
   0x11C50, 0x11D50, 0x11DA0, 0x16A60, 0x16AC0, 0x16B50, 0x1D7CE, 0x1D7D8, 0x1D7E2,
   0x1D7EC, 0x1D7F6, 0x1E140, 0x1E2F0, 0x1E950, 0x1FBF0]

/-- The value of a decimal digit of any script. -/
def decimalValue (c : Char) : Option Nat :=
  (decimalZeros.find? fun start => start ≤ c.toNat && c.toNat < start + 10).map
    fun start => c.toNat - start

/-- A list without the elements at its two ends that satisfy the test. -/
def trim (p : Char → Bool) (text : List Char) : List Char :=
  ((text.dropWhile p).reverse.dropWhile p).reverse

/-- The digits after a first one; single underscores may stand between digits. -/
def readDigits : Nat → List Char → Option Nat
  | value, [] => some value
  | value, '_' :: c :: rest =>
      match decimalValue c with
      | some digit => readDigits (value * 10 + digit) rest
      | none => none
  | value, c :: rest =>
      match decimalValue c with
      | some digit => readDigits (value * 10 + digit) rest
      | none => none

def readNat : List Char → Option Nat
  | [] => none
  | c :: rest => (decimalValue c).bind fun digit => readDigits digit rest

/-- `int(text)`; `none` where it raises `ValueError`. -/
def parseInt (text : List Char) : Option Int :=
  match trim isIntSpace text with
  | '+' :: rest => (readNat rest).map Int.ofNat
  | '-' :: rest => (readNat rest).map fun n => -Int.ofNat n
  | rest => (readNat rest).map Int.ofNat

/-! ## Trimming -/

theorem mem_dropWhile_of_not {p : Char → Bool} {c : Char} {text : List Char}
    (member : c ∈ text) (keep : p c = false) : c ∈ text.dropWhile p := by
  induction text with
  | nil => cases member
  | cons first rest ih =>
      rw [List.dropWhile_cons]
      split
      · rcases List.mem_cons.mp member with rfl | later
        · simp_all
        · exact ih later
      · exact member

theorem mem_trim_of_not {p : Char → Bool} {c : Char} {text : List Char}
    (member : c ∈ text) (keep : p c = false) : c ∈ trim p text := by
  rw [trim, List.mem_reverse]
  exact mem_dropWhile_of_not (List.mem_reverse.mpr (mem_dropWhile_of_not member keep)) keep

theorem dropWhile_eq_self {p : Char → Bool} {text : List Char}
    (keep : ∀ c ∈ text, p c = false) : text.dropWhile p = text := by
  cases text with
  | nil => rfl
  | cons first rest => simp [keep first List.mem_cons_self]

theorem trim_eq_self {p : Char → Bool} {text : List Char}
    (keep : ∀ c ∈ text, p c = false) : trim p text = text := by
  rw [trim, dropWhile_eq_self keep, dropWhile_eq_self, List.reverse_reverse]
  exact fun c member => keep c (List.mem_reverse.mp member)

/-- Trimming leaves the inside of a text alone: only the two outer parts change. -/
theorem trim_between {p : Char → Bool} {first middle last : List Char} {stop : Char}
    (keep : p stop = false) :
    trim p (first ++ stop :: (middle ++ stop :: last)) =
      first.dropWhile p ++ stop :: (middle ++ stop :: (last.reverse.dropWhile p).reverse) := by
  have front (before after : List Char) :
      (before ++ stop :: after).dropWhile p = before.dropWhile p ++ stop :: after := by
    induction before with
    | nil => simp [keep]
    | cons c rest ih =>
        rw [List.cons_append, List.dropWhile_cons, List.dropWhile_cons, ih]
        split <;> rfl
  have reversed : (first.dropWhile p ++ stop :: (middle ++ stop :: last)).reverse =
      last.reverse ++ stop :: (middle.reverse ++ stop :: (first.dropWhile p).reverse) := by simp
  rw [trim, front, reversed, front]
  simp

theorem trim_dropWhile (p : Char → Bool) (text : List Char) :
    trim p (text.dropWhile p) = trim p text := by
  rw [trim, trim, List.dropWhile_idempotent]

theorem dropWhile_congr {p q : Char → Bool} {text : List Char} (agree : ∀ c ∈ text, p c = q c) :
    text.dropWhile p = text.dropWhile q := by
  induction text with
  | nil => rfl
  | cons c rest ih =>
      rw [List.dropWhile_cons, List.dropWhile_cons, agree c List.mem_cons_self,
        ih fun d member => agree d (List.mem_cons_of_mem c member)]

/-- `int()` only sees the text without its outer white space. -/
theorem parseInt_congr_trim {first second : List Char}
    (same : trim isIntSpace first = trim isIntSpace second) : parseInt first = parseInt second := by
  rw [parseInt, parseInt, same]

/-- Trimming the end first does not change the result of trimming both ends. -/
theorem trim_dropWhile_end (p : Char → Bool) (text : List Char) :
    trim p (text.reverse.dropWhile p).reverse = trim p text := by
  have parts : text = (text.reverse.dropWhile p).reverse ++ (text.reverse.takeWhile p).reverse := by
    rw [← List.reverse_append, List.takeWhile_append_dropWhile, List.reverse_reverse]
  generalize hsuffix : (text.reverse.takeWhile p).reverse = suffix at parts
  generalize (text.reverse.dropWhile p).reverse = kept at parts
  have dropped : ∀ c ∈ suffix, p c = true := by
    intro c member
    rw [← hsuffix, List.mem_reverse] at member
    exact List.mem_takeWhile_imp member
  have whole : suffix.dropWhile p = [] := List.dropWhile_eq_nil_iff.mpr dropped
  rw [parts, trim, trim, List.dropWhile_append]
  split
  · rename_i empty
    rw [List.isEmpty_iff.mp empty, whole]
  · rw [List.reverse_append, List.dropWhile_append_of_pos]
    exact fun c member => dropped c (List.mem_reverse.mp member)

/-! ## Characters of a number -/

/-- Characters that may stand in a text which `int()` accepts. -/
def IntChar (c : Char) : Prop :=
  isIntSpace c = true ∨ c = '+' ∨ c = '-' ∨ c = '_' ∨ (decimalValue c).isSome

theorem intChar_of_readDigits {value : Nat} {text : List Char}
    (accepted : (readDigits value text).isSome) {c : Char} (member : c ∈ text) : IntChar c := by
  fun_induction readDigits value text with
  | case1 => cases member
  | case2 value d rest digit hd ih =>
      rcases List.mem_cons.mp member with rfl | member
      · exact .inr (.inr (.inr (.inl rfl)))
      rcases List.mem_cons.mp member with rfl | member
      · exact .inr (.inr (.inr (.inr (by rw [hd]; rfl))))
      · exact ih accepted member
  | case3 => cases accepted
  | case4 value d rest _ digit hd ih =>
      rcases List.mem_cons.mp member with rfl | member
      · exact .inr (.inr (.inr (.inr (by rw [hd]; rfl))))
      · exact ih accepted member
  | case5 => cases accepted

theorem intChar_of_readNat {text : List Char} (accepted : (readNat text).isSome) {c : Char}
    (member : c ∈ text) : IntChar c := by
  cases text with
  | nil => cases member
  | cons first rest =>
      simp only [readNat] at accepted
      cases hd : decimalValue first with
      | none => rw [hd] at accepted; cases accepted
      | some digit =>
          rw [hd] at accepted
          rcases List.mem_cons.mp member with rfl | later
          · exact .inr (.inr (.inr (.inr (by rw [hd]; rfl))))
          · exact intChar_of_readDigits accepted later

theorem intChar_of_parseInt {text : List Char} (accepted : (parseInt text).isSome) {c : Char}
    (member : c ∈ text) : IntChar c := by
  by_cases space : isIntSpace c = true
  · exact .inl space
  have inside : c ∈ trim isIntSpace text := mem_trim_of_not member (by simpa using space)
  unfold parseInt at accepted
  split at accepted
  · rename_i rest shape
    rw [shape] at inside
    rcases List.mem_cons.mp inside with rfl | later
    · exact .inr (.inl rfl)
    · exact intChar_of_readNat (by simpa using accepted) later
  · rename_i rest shape
    rw [shape] at inside
    rcases List.mem_cons.mp inside with rfl | later
    · exact .inr (.inr (.inl rfl))
    · exact intChar_of_readNat (by simpa using accepted) later
  · exact intChar_of_readNat (by simpa using accepted) inside

/-- No decimal digit of any script is white space. -/
theorem isSpaceCode_digit : ∀ start ∈ decimalZeros, ∀ k < 10, isSpaceCode (start + k) = false := by
  decide

theorem not_isSpace_of_decimalValue {c : Char} (digit : (decimalValue c).isSome) :
    isSpace c = false := by
  have found : ∃ start ∈ decimalZeros, start ≤ c.toNat ∧ c.toNat < start + 10 := by
    simpa [decimalValue] using digit
  obtain ⟨start, zero, low, high⟩ := found
  have none := isSpaceCode_digit start zero (c.toNat - start) (by omega)
  rwa [Nat.add_sub_cancel' low] at none

theorem isSpace_eq_isIntSpace {c : Char} (number : IntChar c) : isSpace c = isIntSpace c := by
  rcases number with space | rfl | rfl | rfl | digit
  · rw [space]
    rw [isIntSpace, Bool.and_eq_true] at space
    exact space.1
  · decide
  · decide
  · decide
  · rw [isIntSpace, not_isSpace_of_decimalValue digit, Bool.false_and]

/-- The two characters that separate the parts of a row identifier are never part of a number. -/
theorem intChar_ne_separator {c : Char} (number : IntChar c) : c ≠ '@' ∧ c ≠ '/' := by
  constructor <;> rintro rfl <;> revert number <;> unfold IntChar <;> decide

/-! ## Decimal numerals read back -/

theorem decimalValue_of_isDigit {c : Char} (digit : c.isDigit) :
    decimalValue c = some (c.toNat - '0'.toNat) := by
  have low : '0'.toNat ≤ c.toNat ∧ c.toNat < '0'.toNat + 10 := by
    simp only [Char.isDigit, Bool.and_eq_true, decide_eq_true_eq] at digit
    have upper : c.toNat ≤ '9'.toNat := digit.2
    exact ⟨digit.1, Nat.lt_succ_of_le upper⟩
  have first : (decimalZeros.find? fun start => start ≤ c.toNat && c.toNat < start + 10) =
      some '0'.toNat := by
    rw [decimalZeros, List.find?_cons_of_pos]
    · rfl
    · simpa using low
  rw [decimalValue, first]
  rfl

theorem not_isSpace_of_isDigit {c : Char} (digit : c.isDigit) : isSpace c = false := by
  simp only [Char.isDigit, Bool.and_eq_true, decide_eq_true_eq] at digit
  have lower : 48 ≤ c.toNat := digit.1
  have upper : c.toNat ≤ 57 := digit.2
  simp only [isSpace, isSpaceCode, Bool.or_eq_false_iff, Bool.and_eq_false_iff, decide_eq_false_iff_not,
    beq_eq_false_iff_ne]
  omega

theorem readDigits_of_isDigit (value : Nat) {text : List Char}
    (digits : ∀ c ∈ text, c.isDigit) :
    readDigits value text = some (Nat.ofDigitChars 10 text value) := by
  induction text generalizing value with
  | nil => simp [readDigits]
  | cons c rest ih =>
      have first := digits c List.mem_cons_self
      have step := ih (value * 10 + (c.toNat - '0'.toNat))
        fun d member => digits d (List.mem_cons_of_mem c member)
      rw [Nat.ofDigitChars_cons, Nat.mul_comm 10 value, ← step]
      rw [readDigits]
      · rw [decimalValue_of_isDigit first]
      · rintro d tail rfl _
        exact absurd first (by decide)

theorem readNat_toDigits (n : Nat) : readNat (Nat.toDigits 10 n) = some n := by
  have digits : ∀ c ∈ Nat.toDigits 10 n, c.isDigit := fun c member =>
    Nat.isDigit_of_mem_toDigits (by decide) (by decide) member
  have value := Nat.ofDigitChars_ten_toDigits (n := n)
  cases shape : Nat.toDigits 10 n with
  | nil => exact absurd shape Nat.toDigits_ne_nil
  | cons c rest =>
      rw [shape] at digits value
      have first := digits c List.mem_cons_self
      rw [Nat.ofDigitChars_cons] at value
      simp only [readNat, decimalValue_of_isDigit first, Option.bind_some]
      rw [readDigits_of_isDigit _ fun d member => digits d (List.mem_cons_of_mem c member)]
      simpa using value

/-- `int(str(n)) == n`. -/
theorem parseInt_toDigits (n : Nat) : parseInt (Nat.toDigits 10 n) = some (n : Int) := by
  have digits : ∀ c ∈ Nat.toDigits 10 n, c.isDigit := fun c member =>
    Nat.isDigit_of_mem_toDigits (by decide) (by decide) member
  have trimmed : trim isIntSpace (Nat.toDigits 10 n) = Nat.toDigits 10 n :=
    trim_eq_self fun c member => by
      rw [isIntSpace, not_isSpace_of_isDigit (digits c member), Bool.false_and]
  unfold parseInt
  rw [trimmed]
  split
  · rename_i rest shape
    exact absurd (digits '+' (by rw [shape]; exact List.mem_cons_self)) (by decide)
  · rename_i rest shape
    exact absurd (digits '-' (by rw [shape]; exact List.mem_cons_self)) (by decide)
  · rw [readNat_toDigits]
    rfl

end YouMi.Python

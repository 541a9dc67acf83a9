import YouMi.Python.Text
import YouMi.Library.OrderedDict

/-!
# JSON texts

`json.loads` on a text, and the texts that `json.dumps` writes.  As with the digits of
an integer, the interpreter's bound on the nesting of a value is not modelled.  A text
has no single halves of surrogate pairs: where `json.loads` makes one, the replacement
character stands for it.
-/

namespace YouMi.Python

open YouMi.Library

/-- A value read from a text; a number is kept as it is written. -/
inductive Json where
  | null
  | bool (value : Bool)
  | number (literal : List Char)
  | str (text : List Char)
  | list (items : List Json)
  | dict (entries : List (List Char × Json))

namespace Json

/-! ## Strings -/

def hexValue (c : Char) : Option Nat :=
  if '0' ≤ c ∧ c ≤ '9' then some (c.toNat - 48)
  else if 'a' ≤ c ∧ c ≤ 'f' then some (c.toNat - 87)
  else if 'A' ≤ c ∧ c ≤ 'F' then some (c.toNat - 55)
  else none

/-- The code of four hexadecimal digits. -/
def hexCode (a b c d : Char) : Option Nat :=
  match hexValue a, hexValue b, hexValue c, hexValue d with
  | some a, some b, some c, some d => some (((a * 16 + b) * 16 + c) * 16 + d)
  | _, _, _, _ => none

/-- What a backslash and a letter stand for. -/
def escaped : Char → Option Nat
  | '"' => some 34
  | '\\' => some 92
  | '/' => some 47
  | 'b' => some 8
  | 'f' => some 12
  | 'n' => some 10
  | 'r' => some 13
  | 't' => some 9
  | _ => none

/-- The codes of a string up to its closing quote, and what follows that. -/
def scanCodes : List Char → Option (List Nat × List Char)
  | [] => none
  | '"' :: rest => some ([], rest)
  | '\\' :: 'u' :: a :: b :: c :: d :: rest =>
      match hexCode a b c d, scanCodes rest with
      | some code, some (codes, rest) => some (code :: codes, rest)
      | _, _ => none
  | '\\' :: c :: rest =>
      match escaped c, scanCodes rest with
      | some code, some (codes, rest) => some (code :: codes, rest)
      | _, _ => none
  | c :: rest =>
      if c.toNat < 32 then none
      else (scanCodes rest).map fun scanned => (c.toNat :: scanned.1, scanned.2)

def isHighSurrogate (code : Nat) : Bool := 0xD800 ≤ code ∧ code < 0xDC00

def isLowSurrogate (code : Nat) : Bool := 0xDC00 ≤ code ∧ code < 0xE000

def charOf (code : Nat) : Char := if code.isValidChar then Char.ofNat code else '\uFFFD'

/-- The text of the codes, in which surrogate pairs are joined. -/
def joinCodes : List Nat → List Char
  | [] => []
  | [code] => [charOf code]
  | high :: low :: rest =>
      if isHighSurrogate high && isLowSurrogate low then
        charOf (0x10000 + (high - 0xD800) * 1024 + (low - 0xDC00)) :: joinCodes rest
      else charOf high :: joinCodes (low :: rest)

/-- A string after its opening quote. -/
def scanString (text : List Char) : Option (List Char × List Char) :=
  (scanCodes text).map fun scanned => (joinCodes scanned.1, scanned.2)

/-! ## Values -/

def isJsonSpace (c : Char) : Bool := c = ' ' || c = '\t' || c = '\n' || c = '\r'

def skipSpace (text : List Char) : List Char := text.dropWhile isJsonSpace

def isDigit (c : Char) : Bool := '0' ≤ c && c ≤ '9'

/-- A fraction, if a digit follows the point. -/
def scanFraction : List Char → List Char × List Char
  | '.' :: c :: rest =>
      if isDigit c then ('.' :: c :: rest.takeWhile isDigit, rest.dropWhile isDigit)
      else ([], '.' :: c :: rest)
  | text => ([], text)

/-- The digits of an exponent. -/
def scanPower (before text : List Char) : Option (List Char × List Char) :=
  match text with
  | c :: rest =>
      if isDigit c then some (before ++ c :: rest.takeWhile isDigit, rest.dropWhile isDigit)
      else none
  | [] => none

/-- An exponent, if it has digits. -/
def scanExponent (text : List Char) : List Char × List Char :=
  match text with
  | e :: rest =>
      if e = 'e' ∨ e = 'E' then
        let scanned := match rest with
          | '+' :: digits => scanPower [e, '+'] digits
          | '-' :: digits => scanPower [e, '-'] digits
          | digits => scanPower [e] digits
        scanned.getD ([], text)
      else ([], text)
  | [] => ([], [])

/-- The digits before the point: `0`, or a list that begins with another digit. -/
def scanInteger : List Char → Option (List Char × List Char)
  | '0' :: rest => some (['0'], rest)
  | c :: rest =>
      if isDigit c then some (c :: rest.takeWhile isDigit, rest.dropWhile isDigit) else none
  | [] => none

def scanNumber (text : List Char) : Option (Json × List Char) :=
  let (sign, text) := match text with
    | '-' :: rest => (['-'], rest)
    | text => ([], text)
  (scanInteger text).map fun scanned =>
    let fraction := scanFraction scanned.2
    let exponent := scanExponent fraction.2
    (.number (sign ++ scanned.1 ++ fraction.1 ++ exponent.1), exponent.2)

/-- A word of the language. -/
def scanWord (text : List Char) : Option (Json × List Char) :=
  match text with
  | 'n' :: 'u' :: 'l' :: 'l' :: rest => some (.null, rest)
  | 't' :: 'r' :: 'u' :: 'e' :: rest => some (.bool true, rest)
  | 'f' :: 'a' :: 'l' :: 's' :: 'e' :: rest => some (.bool false, rest)
  | 'N' :: 'a' :: 'N' :: rest => some (.number ['N', 'a', 'N'], rest)
  | 'I' :: 'n' :: 'f' :: 'i' :: 'n' :: 'i' :: 't' :: 'y' :: rest =>
      some (.number "Infinity".toList, rest)
  | '-' :: 'I' :: 'n' :: 'f' :: 'i' :: 'n' :: 'i' :: 't' :: 'y' :: rest =>
      some (.number "-Infinity".toList, rest)
  | text => scanNumber text

/-- The key of an entry, up to its value. -/
def scanKey (text : List Char) : Option (List Char × List Char) :=
  match text with
  | '"' :: rest =>
      match scanString rest with
      | none => none
      | some (key, rest) =>
          match skipSpace rest with
          | ':' :: rest => some (key, skipSpace rest)
          | _ => none
  | _ => none

mutual

/-- A value at the beginning of the text, and what follows it. -/
def scanValue : Nat → List Char → Option (Json × List Char)
  | 0, _ => none
  | fuel + 1, text =>
      match text with
      | '"' :: rest => (scanString rest).map fun scanned => (.str scanned.1, scanned.2)
      | '{' :: rest =>
          match skipSpace rest with
          | '}' :: rest => some (.dict [], rest)
          | rest => (scanEntries fuel rest).map fun scanned =>
              (.dict (scanned.1.foldl (fun d entry => OrderedDict.assign d entry.1 entry.2) []),
                scanned.2)
      | '[' :: rest =>
          match skipSpace rest with
          | ']' :: rest => some (.list [], rest)
          | rest => (scanItems fuel rest).map fun scanned => (.list scanned.1, scanned.2)
      | text => scanWord text

/-- The items of an array that has one. -/
def scanItems : Nat → List Char → Option (List Json × List Char)
  | 0, _ => none
  | fuel + 1, text =>
      match scanValue fuel text with
      | none => none
      | some (item, rest) =>
          match skipSpace rest with
          | ',' :: rest =>
              (scanItems fuel (skipSpace rest)).map fun scanned => (item :: scanned.1, scanned.2)
          | ']' :: rest => some ([item], rest)
          | _ => none

/-- The entries of an object that has one, in the order of the text. -/
def scanEntries : Nat → List Char → Option (List (List Char × Json) × List Char)
  | 0, _ => none
  | fuel + 1, text =>
      match scanKey text with
      | none => none
      | some (key, rest) =>
          match scanValue fuel rest with
          | none => none
          | some (value, rest) =>
              match skipSpace rest with
              | ',' :: rest => (scanEntries fuel (skipSpace rest)).map fun scanned =>
                  ((key, value) :: scanned.1, scanned.2)
              | '}' :: rest => some ([(key, value)], rest)
              | _ => none

end

/-! ## The text gets shorter -/

theorem length_skipSpace_le (text : List Char) : (skipSpace text).length ≤ text.length :=
  (List.dropWhile_suffix _).length_le

theorem length_lt_of_skipSpace {text later : List Char} {c : Char}
    (reads : skipSpace text = c :: later) : later.length < text.length := by
  have skipped := length_skipSpace_le text
  rw [reads, List.length_cons] at skipped
  exact skipped

/-- A digit and those after it are read. -/
theorem length_dropDigits (c : Char) (rest : List Char) :
    (rest.dropWhile isDigit).length < (c :: rest).length := by
  rw [List.length_cons]
  exact Nat.lt_succ_of_le (List.dropWhile_suffix _).length_le

theorem length_scanCodes {text rest : List Char} {codes : List Nat}
    (scanned : scanCodes text = some (codes, rest)) : rest.length < text.length := by
  fun_induction scanCodes text generalizing codes with
  | case1 => cases scanned
  | case2 after =>
      cases scanned
      simp
  | case3 a b c d after code codes after' later isCode ih =>
      cases scanned
      have shorter := ih later
      simp only [List.length_cons]
      omega
  | case4 => cases scanned
  | case5 c after _ code codes after' later isCode ih =>
      cases scanned
      have shorter := ih later
      simp only [List.length_cons]
      omega
  | case6 => cases scanned
  | case7 => cases scanned
  | case8 c after _ _ _ _ ih =>
      obtain ⟨found, later, same⟩ := Option.map_eq_some_iff.mp scanned
      cases same
      have shorter := ih later
      simp only [List.length_cons]
      omega

theorem length_scanString {text rest string : List Char}
    (scanned : scanString text = some (string, rest)) : rest.length < text.length := by
  obtain ⟨found, codes, same⟩ := Option.map_eq_some_iff.mp scanned
  cases same
  exact length_scanCodes codes

theorem length_scanFraction_le (text : List Char) :
    (scanFraction text).2.length ≤ text.length := by
  unfold scanFraction
  split
  · split
    · exact (length_dropDigits _ _).le.trans (Nat.le_succ _)
    · exact le_rfl
  · exact le_rfl

theorem length_scanPower {before text rest literal : List Char}
    (scanned : scanPower before text = some (literal, rest)) : rest.length < text.length := by
  unfold scanPower at scanned
  split at scanned
  · split at scanned
    · cases scanned
      exact length_dropDigits _ _
    · cases scanned
  · cases scanned

theorem length_scanExponent_le (text : List Char) :
    (scanExponent text).2.length ≤ text.length := by
  unfold scanExponent
  split
  · rename_i e rest
    split
    · have atMost (scanned : Option (List Char × List Char))
          (shorter : ∀ found, scanned = some found → found.2.length ≤ rest.length) :
          (scanned.getD ([], e :: rest)).2.length ≤ (e :: rest).length := by
        cases scanned with
        | none => exact le_rfl
        | some found => exact (shorter found rfl).trans (Nat.le_succ _)
      refine atMost _ fun found scanned => ?_
      split at scanned
      · exact (length_scanPower scanned).le.trans (Nat.le_succ _)
      · exact (length_scanPower scanned).le.trans (Nat.le_succ _)
      · exact (length_scanPower scanned).le
    · exact le_rfl
  · exact le_rfl

theorem length_scanInteger {text rest literal : List Char}
    (scanned : scanInteger text = some (literal, rest)) : rest.length < text.length := by
  unfold scanInteger at scanned
  split at scanned
  · cases scanned
    simp
  · split at scanned
    · cases scanned
      exact length_dropDigits _ _
    · cases scanned
  · cases scanned

theorem length_scanNumber {text rest : List Char} {value : Json}
    (scanned : scanNumber text = some (value, rest)) : rest.length < text.length := by
  unfold scanNumber at scanned
  obtain ⟨digits, integer, same⟩ := Option.map_eq_some_iff.mp scanned
  cases same
  have first := length_scanInteger integer
  have second := length_scanFraction_le digits.2
  have third := length_scanExponent_le (scanFraction digits.2).2
  have unsigned : (match text with
      | '-' :: rest => ((['-'], rest) : List Char × List Char)
      | text => ([], text)).2.length ≤ text.length := by
    split
    · exact Nat.le_succ _
    · exact le_rfl
  omega

theorem length_scanWord {text rest : List Char} {value : Json}
    (scanned : scanWord text = some (value, rest)) : rest.length < text.length := by
  unfold scanWord at scanned
  split at scanned
  case h_7 => exact length_scanNumber scanned
  all_goals
    cases scanned
    simp only [List.length_cons]
    omega

theorem length_scanKey {text rest key : List Char}
    (scanned : scanKey text = some (key, rest)) : rest.length < text.length := by
  unfold scanKey at scanned
  split at scanned
  · split at scanned
    · cases scanned
    · rename_i first key after string
      split at scanned
      · rename_i later colon
        cases scanned
        have shorter := length_scanString string
        have skipped := length_lt_of_skipSpace colon
        have value := length_skipSpace_le later
        rw [List.length_cons]
        omega
      · cases scanned
  · cases scanned

mutual

theorem length_scanValue {fuel : Nat} {text rest : List Char} {value : Json}
    (scanned : scanValue fuel text = some (value, rest)) : rest.length < text.length := by
  cases fuel with
  | zero => cases scanned
  | succ fuel =>
      unfold scanValue at scanned
      split at scanned
      · obtain ⟨found, string, same⟩ := Option.map_eq_some_iff.mp scanned
        cases same
        exact (length_scanString string).trans (Nat.lt_succ_self _)
      · rename_i after
        split at scanned
        · rename_i later closed
          cases scanned
          exact (length_lt_of_skipSpace closed).trans (Nat.lt_succ_self _)
        · obtain ⟨found, entries, same⟩ := Option.map_eq_some_iff.mp scanned
          cases same
          have shorter := length_scanEntries entries
          have skipped := length_skipSpace_le after
          rw [List.length_cons]
          omega
      · rename_i after
        split at scanned
        · rename_i later closed
          cases scanned
          exact (length_lt_of_skipSpace closed).trans (Nat.lt_succ_self _)
        · obtain ⟨found, items, same⟩ := Option.map_eq_some_iff.mp scanned
          cases same
          have shorter := length_scanItems items
          have skipped := length_skipSpace_le after
          rw [List.length_cons]
          omega
      · exact length_scanWord scanned

theorem length_scanItems {fuel : Nat} {text rest : List Char} {items : List Json}
    (scanned : scanItems fuel text = some (items, rest)) : rest.length < text.length := by
  cases fuel with
  | zero => cases scanned
  | succ fuel =>
      unfold scanItems at scanned
      split at scanned
      · cases scanned
      · rename_i item after first
        have shorter := length_scanValue first
        split at scanned
        · rename_i later comma
          obtain ⟨found, others, same⟩ := Option.map_eq_some_iff.mp scanned
          cases same
          have next := length_scanItems others
          have skipped := length_lt_of_skipSpace comma
          have skippedLater := length_skipSpace_le later
          omega
        · rename_i later closed
          cases scanned
          exact (length_lt_of_skipSpace closed).trans shorter
        · cases scanned

theorem length_scanEntries {fuel : Nat} {text rest : List Char}
    {entries : List (List Char × Json)}
    (scanned : scanEntries fuel text = some (entries, rest)) : rest.length < text.length := by
  cases fuel with
  | zero => cases scanned
  | succ fuel =>
      unfold scanEntries at scanned
      split at scanned
      · cases scanned
      · rename_i key before isKey
        have keyed := length_scanKey isKey
        split at scanned
        · cases scanned
        · rename_i value after first
          have shorter := length_scanValue first
          split at scanned
          · rename_i later comma
            obtain ⟨found, others, same⟩ := Option.map_eq_some_iff.mp scanned
            cases same
            have next := length_scanEntries others
            have skipped := length_lt_of_skipSpace comma
            have skippedLater := length_skipSpace_le later
            omega
          · rename_i later closed
            cases scanned
            exact (length_lt_of_skipSpace closed).trans (shorter.trans keyed)
          · cases scanned

end

/-! ## Enough fuel -/

/-- With fuel for every character, more of it changes nothing. -/
theorem scan_eq_of_le {fuel more : Nat} (le : fuel ≤ more) (text : List Char) :
    (2 * text.length < fuel → scanValue more text = scanValue fuel text) ∧
      (2 * text.length + 1 < fuel → scanItems more text = scanItems fuel text) ∧
      (2 * text.length + 1 < fuel → scanEntries more text = scanEntries fuel text) := by
  induction fuel generalizing more text with
  | zero => exact ⟨fun enough => by omega, fun enough => by omega, fun enough => by omega⟩
  | succ fuel ih =>
      obtain ⟨more, rfl⟩ : ∃ n, more = n + 1 := ⟨more - 1, by omega⟩
      have below : fuel ≤ more := by omega
      refine ⟨fun enough => ?_, fun enough => ?_, fun enough => ?_⟩
      · unfold scanValue
        split
        · rfl
        · rename_i rest
          have skipped := length_skipSpace_le rest
          rw [List.length_cons] at enough
          split
          · rfl
          · rw [(ih below _).2.2 (by omega)]
        · rename_i rest
          have skipped := length_skipSpace_le rest
          rw [List.length_cons] at enough
          split
          · rfl
          · rw [(ih below _).2.1 (by omega)]
        · rfl
      · unfold scanItems
        rw [(ih below text).1 (by omega)]
        cases first : scanValue fuel text with
        | none => rfl
        | some scanned =>
            have shorter : scanned.2.length < _ := length_scanValue first
            dsimp only
            split
            · rename_i rest comma
              have skipped := length_lt_of_skipSpace comma
              have later := length_skipSpace_le rest
              rw [(ih below _).2.1 (by omega)]
            · rfl
            · rfl
      · unfold scanEntries
        cases isKey : scanKey text with
        | none => rfl
        | some keyed =>
            have keyShorter : keyed.2.length < _ := length_scanKey isKey
            dsimp only
            rw [(ih below keyed.2).1 (by omega)]
            cases first : scanValue fuel keyed.2 with
            | none => rfl
            | some scanned =>
                have shorter : scanned.2.length < _ := length_scanValue first
                dsimp only
                split
                · rename_i rest comma
                  have skipped := length_lt_of_skipSpace comma
                  have later := length_skipSpace_le rest
                  rw [(ih below _).2.2 (by omega)]
                · rfl
                · rfl

/-- `json.loads`; `none` where it raises. -/
def loads (text : List Char) : Option Json :=
  if text.head? = some '\uFEFF' then none
  else
    match scanValue (2 * text.length + 1) (skipSpace text) with
    | some (value, rest) => if skipSpace rest = [] then some value else none
    | none => none

/-- The fuel of `loads` is enough: with any more the text is read in the same way. -/
theorem scanValue_skipSpace {text : List Char} {fuel : Nat} (enough : 2 * text.length < fuel) :
    scanValue fuel (skipSpace text) = scanValue (2 * text.length + 1) (skipSpace text) := by
  have skipped := length_skipSpace_le text
  exact (scan_eq_of_le (by omega) _).1 (by omega)

/-! ## Writing a text -/

def hexDigit (n : Nat) : Char := if n < 10 then Char.ofNat (48 + n) else Char.ofNat (87 + n)

/-- A code as an escape of four digits. -/
def escapeCode (code : Nat) : List Char :=
  ['\\', 'u', hexDigit (code / 4096), hexDigit (code / 256 % 16), hexDigit (code / 16 % 16),
    hexDigit (code % 16)]

def highSurrogate (code : Nat) : Nat := 0xD800 + (code - 0x10000) / 1024

def lowSurrogate (code : Nat) : Nat := 0xDC00 + (code - 0x10000) % 1024

/-- A character in a string that `json.dumps` writes. -/
def encodeChar (ensureAscii : Bool) (c : Char) : List Char :=
  match c with
  | '"' => ['\\', '"']
  | '\\' => ['\\', '\\']
  | '\n' => ['\\', 'n']
  | '\r' => ['\\', 'r']
  | '\t' => ['\\', 't']
  | '\x0c' => ['\\', 'f']
  | '\x08' => ['\\', 'b']
  | c =>
      if c.toNat < 32 then escapeCode c.toNat
      else if ensureAscii ∧ 126 < c.toNat then
        if c.toNat < 0x10000 then escapeCode c.toNat
        else escapeCode (highSurrogate c.toNat) ++ escapeCode (lowSurrogate c.toNat)
      else [c]

def errorKey : List Char := ['e', 'r', 'r', 'o', 'r']

/-- `json.dumps({"error": text}, ensure_ascii=…)`. -/
def dumpsError (ensureAscii : Bool) (text : List Char) : List Char :=
  '{' :: '"' :: errorKey ++ ['"', ':', ' ', '"'] ++ text.flatMap (encodeChar ensureAscii) ++
    ['"', '}']

/-- The codes of a character as it is written. -/
def codesOf (ensureAscii : Bool) (c : Char) : List Nat :=
  if ensureAscii ∧ 0x10000 ≤ c.toNat then [highSurrogate c.toNat, lowSurrogate c.toNat]
  else [c.toNat]

theorem hexValue_hexDigit : ∀ n < 16, hexValue (hexDigit n) = some n := by decide

theorem scanCodes_escapeCode {code : Nat} (bound : code < 65536) (rest : List Char) :
    scanCodes (escapeCode code ++ rest) =
      (scanCodes rest).map fun scanned => (code :: scanned.1, scanned.2) := by
  have digits : hexCode (hexDigit (code / 4096)) (hexDigit (code / 256 % 16))
      (hexDigit (code / 16 % 16)) (hexDigit (code % 16)) = some code := by
    unfold hexCode
    rw [hexValue_hexDigit _ (by omega), hexValue_hexDigit _ (by omega),
      hexValue_hexDigit _ (by omega), hexValue_hexDigit _ (by omega)]
    dsimp only
    congr 1
    omega
  change scanCodes ('\\' :: 'u' :: _ :: _ :: _ :: _ :: rest) = _
  rw [scanCodes, digits]
  cases scanCodes rest <;> rfl

theorem toNat_lt (c : Char) : c.toNat < 0x110000 := by
  rcases c.valid with below | ⟨_, below⟩
  · exact below.trans (by decide)
  · exact below

/-- A written character is read as its codes. -/
theorem scanCodes_encodeChar (ensureAscii : Bool) (c : Char) (rest : List Char) :
    scanCodes (encodeChar ensureAscii c ++ rest) =
      (scanCodes rest).map fun scanned => (codesOf ensureAscii c ++ scanned.1, scanned.2) := by
  have small {code : Nat} (isCode : c.toNat = code) (bound : code < 0x10000) :
      codesOf ensureAscii c = [code] := by
    unfold codesOf
    rw [if_neg (by omega), isCode]
  have letter {l : Char} {code : Nat} (isCode : c.toNat = code) (bound : code < 0x10000)
      (notHex : l ≠ 'u') (stands : escaped l = some code) :
      scanCodes (['\\', l] ++ rest) =
        (scanCodes rest).map fun scanned => (codesOf ensureAscii c ++ scanned.1, scanned.2) := by
    rw [small isCode bound]
    change scanCodes ('\\' :: l :: rest) = _
    rw [scanCodes.eq_4 l rest fun _ _ _ _ _ same _ => notHex same, stands]
    cases scanCodes rest <;> rfl
  unfold encodeChar
  split
  · exact letter rfl (by decide) (by decide) rfl
  · exact letter rfl (by decide) (by decide) rfl
  · exact letter rfl (by decide) (by decide) rfl
  · exact letter rfl (by decide) (by decide) rfl
  · exact letter rfl (by decide) (by decide) rfl
  · exact letter rfl (by decide) (by decide) rfl
  · exact letter rfl (by decide) (by decide) rfl
  · rename_i notQuote notBackslash _ _ _ _ _
    have bound := toNat_lt c
    split
    · rw [small rfl (by omega), scanCodes_escapeCode (by omega)]
      rfl
    · rename_i printable
      split
      · rename_i ascii
        split
        · rename_i basic
          rw [small rfl basic, scanCodes_escapeCode basic]
          rfl
        · rename_i astral
          have pair : codesOf ensureAscii c =
              [highSurrogate c.toNat, lowSurrogate c.toNat] := if_pos ⟨ascii.1, by omega⟩
          have high : highSurrogate c.toNat < 65536 := by
            unfold highSurrogate
            omega
          have low : lowSurrogate c.toNat < 65536 := by
            unfold lowSurrogate
            omega
          rw [pair, List.append_assoc, scanCodes_escapeCode high, scanCodes_escapeCode low,
            Option.map_map]
          rfl
      · rename_i notAscii
        have plain : codesOf ensureAscii c = [c.toNat] := if_neg (by
          rintro ⟨ascii, astral⟩
          exact notAscii ⟨ascii, by omega⟩)
        rw [plain]
        change scanCodes (c :: rest) = _
        rw [scanCodes.eq_5 c rest (fun same => notQuote same)
          (fun _ _ _ _ _ same _ => notBackslash same) (fun _ _ same _ => notBackslash same),
          if_neg printable]
        rfl

theorem scanCodes_encoded (ensureAscii : Bool) (text rest : List Char) :
    scanCodes (text.flatMap (encodeChar ensureAscii) ++ '"' :: rest) =
      some (text.flatMap (codesOf ensureAscii), rest) := by
  induction text with
  | nil => exact scanCodes.eq_2 rest
  | cons c text ih =>
      rw [List.flatMap_cons, List.append_assoc, scanCodes_encodeChar, ih]
      rfl

theorem charOf_toNat (c : Char) : charOf c.toNat = c := by
  unfold charOf
  have valid : c.toNat.isValidChar := c.valid
  rw [if_pos valid, Char.ofNat_toNat]

theorem not_isHighSurrogate (c : Char) : isHighSurrogate c.toNat = false := by
  refine decide_eq_false fun high => ?_
  rcases c.valid with below | ⟨above, _⟩
  · exact absurd below (Nat.not_lt_of_le high.1)
  · have bound : c.toNat < 0xDC00 := high.2
    have above : 0xDFFF < c.toNat := above
    omega

/-- The codes of a character are joined to the character. -/
theorem joinCodes_codesOf (ensureAscii : Bool) (c : Char) (rest : List Nat) :
    joinCodes (codesOf ensureAscii c ++ rest) = c :: joinCodes rest := by
  unfold codesOf
  split
  · rename_i astral
    have bound := toNat_lt c
    have high : isHighSurrogate (highSurrogate c.toNat) = true := by
      refine decide_eq_true ?_
      unfold highSurrogate
      omega
    have low : isLowSurrogate (lowSurrogate c.toNat) = true := by
      refine decide_eq_true ?_
      unfold lowSurrogate
      omega
    have code : 0x10000 + (highSurrogate c.toNat - 0xD800) * 1024 +
        (lowSurrogate c.toNat - 0xDC00) = c.toNat := by
      unfold highSurrogate lowSurrogate
      omega
    change joinCodes (highSurrogate c.toNat :: lowSurrogate c.toNat :: rest) = _
    rw [joinCodes, high, low]
    simp only [Bool.and_self, if_true]
    rw [code, charOf_toNat]
  · change joinCodes (c.toNat :: rest) = _
    cases rest with
    | nil => exact congrArg (fun c => [c]) (charOf_toNat c)
    | cons next rest =>
        rw [joinCodes, not_isHighSurrogate, Bool.false_and, if_neg (by decide), charOf_toNat]

theorem joinCodes_encoded (ensureAscii : Bool) (text : List Char) :
    joinCodes (text.flatMap (codesOf ensureAscii)) = text := by
  induction text with
  | nil => rfl
  | cons c text ih => rw [List.flatMap_cons, joinCodes_codesOf, ih]

/-- A string that has been written is read again. -/
theorem scanString_encoded (ensureAscii : Bool) (text rest : List Char) :
    scanString (text.flatMap (encodeChar ensureAscii) ++ '"' :: rest) = some (text, rest) := by
  unfold scanString
  rw [scanCodes_encoded]
  exact congrArg (fun text => some (text, rest)) (joinCodes_encoded ensureAscii text)

theorem scanKey_error (rest : List Char) :
    scanKey ('"' :: (errorKey ++ '"' :: ':' :: ' ' :: '"' :: rest)) =
      some (errorKey, '"' :: rest) := by
  have plain : errorKey.flatMap (encodeChar true) = errorKey := by decide
  have string := scanString_encoded true errorKey (':' :: ' ' :: '"' :: rest)
  rw [plain] at string
  change (match scanString (errorKey ++ '"' :: ':' :: ' ' :: '"' :: rest) with
    | none => none
    | some (key, rest) =>
        match skipSpace rest with
        | ':' :: rest => some (key, skipSpace rest)
        | _ => none) = _
  rw [string]
  rfl

/-- What `json.dumps` writes of an error is read as an object with the error. -/
theorem loads_dumpsError (ensureAscii : Bool) (text : List Char) :
    loads (dumpsError ensureAscii text) = some (.dict [(errorKey, .str text)]) := by
  obtain ⟨body, written⟩ : ∃ body, body = text.flatMap (encodeChar ensureAscii) ++ ['"', '}'] :=
    ⟨_, rfl⟩
  have shape : dumpsError ensureAscii text =
      '{' :: '"' :: (errorKey ++ '"' :: ':' :: ' ' :: '"' :: body) := by
    rw [written]
    simp [dumpsError]
  have value (fuel : Nat) : scanValue (fuel + 1) ('"' :: body) = some (.str text, ['}']) := by
    rw [scanValue, written, scanString_encoded]
    rfl
  have entries (fuel : Nat) :
      scanEntries (fuel + 2) ('"' :: (errorKey ++ '"' :: ':' :: ' ' :: '"' :: body)) =
        some ([(errorKey, .str text)], []) := by
    rw [scanEntries, scanKey_error]
    dsimp only
    rw [value]
    rfl
  have object (fuel : Nat) : scanValue (fuel + 3) (dumpsError ensureAscii text) =
      some (.dict [(errorKey, .str text)], []) := by
    rw [shape, scanValue]
    have skipped : skipSpace ('"' :: (errorKey ++ '"' :: ':' :: ' ' :: '"' :: body)) =
        '"' :: (errorKey ++ '"' :: ':' :: ' ' :: '"' :: body) :=
      List.dropWhile_cons_of_neg (by decide)
    rw [skipped]
    change (scanEntries (fuel + 2) _).map _ = _
    rw [entries]
    rfl
  have first : (dumpsError ensureAscii text).head? ≠ some '\uFEFF' := by
    rw [shape, List.head?_cons]
    decide
  have skipped : skipSpace (dumpsError ensureAscii text) = dumpsError ensureAscii text := by
    rw [shape]
    exact List.dropWhile_cons_of_neg (by decide)
  obtain ⟨fuel, enough⟩ : ∃ fuel, 2 * (dumpsError ensureAscii text).length + 1 = fuel + 3 := by
    refine ⟨2 * (dumpsError ensureAscii text).length - 2, ?_⟩
    rw [shape]
    simp only [List.length_cons]
    omega
  unfold loads
  rw [if_neg first, skipped, enough, object]
  rfl

/-! ## Objects -/

theorem scanValue_brace {fuel : Nat} {text rest : List Char} {value : Json}
    (scanned : scanValue fuel ('{' :: text) = some (value, rest)) :
    ∃ entries, value = .dict entries := by
  cases fuel with
  | zero => cases scanned
  | succ fuel =>
      rw [scanValue] at scanned
      split at scanned
      · cases scanned
        exact ⟨_, rfl⟩
      · obtain ⟨found, _, same⟩ := Option.map_eq_some_iff.mp scanned
        cases same
        exact ⟨_, rfl⟩

/-- A text that begins with a brace is read as an object. -/
theorem loads_brace {text : List Char} {value : Json} (read : loads ('{' :: text) = some value) :
    ∃ entries, value = .dict entries := by
  have skipped : skipSpace ('{' :: text) = '{' :: text :=
    List.dropWhile_cons_of_neg (by decide)
  unfold loads at read
  rw [skipped] at read
  split at read
  · cases read
  · split at read
    · rename_i scanned
      split at read
      · cases read
        exact scanValue_brace scanned
      · cases read
    · cases read

/-- A string as `json.dumps` writes it. -/
def dumpsString (ensureAscii : Bool) (text : List Char) : List Char :=
  '"' :: text.flatMap (encodeChar ensureAscii) ++ ['"']

section Dumps

variable (ensureAscii : Bool) (writeNumber : List Char → List Char)

mutual

/-- `json.dumps`; `writeNumber` writes the number that a literal stands for. -/
def dumps : Json → List Char
  | .null => ['n', 'u', 'l', 'l']
  | .bool true => ['t', 'r', 'u', 'e']
  | .bool false => ['f', 'a', 'l', 's', 'e']
  | .number literal => writeNumber literal
  | .str text => dumpsString ensureAscii text
  | .list items => '[' :: dumpsItems items ++ [']']
  | .dict entries => '{' :: dumpsEntries entries ++ ['}']

def dumpsItems : List Json → List Char
  | [] => []
  | [item] => dumps item
  | item :: items => dumps item ++ [',', ' '] ++ dumpsItems items

def dumpsEntries : List (List Char × Json) → List Char
  | [] => []
  | [(key, value)] => dumpsString ensureAscii key ++ [':', ' '] ++ dumps value
  | (key, value) :: entries =>
      dumpsString ensureAscii key ++ [':', ' '] ++ dumps value ++ [',', ' '] ++
        dumpsEntries entries

end

variable {ensureAscii writeNumber}

theorem dumpsError_eq (text : List Char) :
    dumpsError ensureAscii text =
      dumps ensureAscii writeNumber (.dict [(errorKey, .str text)]) := by
  have plain : errorKey.flatMap (encodeChar ensureAscii) = errorKey := by
    cases ensureAscii <;> decide
  rw [dumps, dumpsEntries, dumps, dumpsString, dumpsString, plain, dumpsError]
  simp

/-- Only the text of an object begins with a brace. -/
theorem dumps_eq_dict {value : Json} {entries : List (List Char × Json)}
    (numbers : ∀ literal, (writeNumber literal).head? ≠ some '{')
    (same : dumps ensureAscii writeNumber value = dumps ensureAscii writeNumber (.dict entries)) :
    ∃ entries, value = .dict entries := by
  have brace : (dumps ensureAscii writeNumber value).head? = some '{' := by
    rw [same, dumps]
    rfl
  cases value with
  | dict entries => exact ⟨entries, rfl⟩
  | number literal =>
      rw [dumps] at brace
      exact absurd brace (numbers literal)
  | bool value => cases value <;> (rw [dumps] at brace; cases brace)
  | null => rw [dumps] at brace; cases brace
  | str text => rw [dumps] at brace; cases brace
  | list items => rw [dumps] at brace; cases brace

/-! ## Lists of strings -/

theorem dumpsItems_cons (item next : Json) (items : List Json) :
    dumpsItems ensureAscii writeNumber (item :: next :: items) =
      dumps ensureAscii writeNumber item ++ ',' :: ' ' ::
        dumpsItems ensureAscii writeNumber (next :: items) := by
  rw [dumpsItems]
  · simp
  · nofun

theorem length_le_dumpsItems (texts : List (List Char)) :
    texts.length ≤ (dumpsItems ensureAscii writeNumber (texts.map .str)).length := by
  induction texts with
  | nil => exact Nat.zero_le _
  | cons text texts ih =>
      cases texts with
      | nil =>
          rw [List.map_cons, List.map_nil, dumpsItems, dumps, dumpsString]
          simp
      | cons next texts =>
          rw [List.map_cons, List.map_cons, dumpsItems_cons, ← List.map_cons]
          simp only [List.length_append, List.length_cons] at ih ⊢
          omega

/-- The string at the beginning of what is written is read. -/
theorem scanValue_dumpsString (fuel : Nat) (text rest : List Char) :
    scanValue (fuel + 1) (dumpsString ensureAscii text ++ rest) = some (.str text, rest) := by
  rw [dumpsString, List.cons_append, List.cons_append, List.append_assoc, List.singleton_append,
    scanValue, scanString_encoded]
  rfl

theorem scanItems_strings (text : List Char) (texts : List (List Char)) (rest : List Char)
    {fuel : Nat} (enough : texts.length + 2 ≤ fuel) :
    scanItems fuel (dumpsItems ensureAscii writeNumber ((text :: texts).map .str) ++ ']' :: rest) =
      some ((text :: texts).map .str, rest) := by
  induction texts generalizing text fuel with
  | nil =>
      obtain ⟨fuel, rfl⟩ : ∃ more, fuel = more + 2 := ⟨fuel - 2, by omega⟩
      rw [List.map_cons, List.map_nil, dumpsItems, dumps, scanItems, scanValue_dumpsString]
      rfl
  | cons next texts ih =>
      rw [List.length_cons] at enough
      obtain ⟨fuel, rfl⟩ : ∃ more, fuel = more + 2 := ⟨fuel - 2, by omega⟩
      have later : scanItems (fuel + 1)
          (dumpsItems ensureAscii writeNumber ((next :: texts).map .str) ++ ']' :: rest) =
            some ((next :: texts).map .str, rest) := ih next (by omega)
      obtain ⟨body, written⟩ : ∃ body, dumpsItems ensureAscii writeNumber
          ((next :: texts).map .str) ++ ']' :: rest = '"' :: body := by
        cases texts with
        | nil => exact ⟨_, rfl⟩
        | cons => exact ⟨_, rfl⟩
      rw [List.map_cons, List.map_cons, dumpsItems_cons, ← List.map_cons, List.append_assoc,
        List.cons_append, List.cons_append, written, dumps, scanItems, scanValue_dumpsString]
      rw [written] at later
      change (scanItems (fuel + 1) ('"' :: body)).map _ = _
      rw [later]
      rfl

/-- A list of strings that has been written is read again. -/
theorem loads_strings (texts : List (List Char)) :
    loads (dumps ensureAscii writeNumber (.list (texts.map .str))) =
      some (.list (texts.map .str)) := by
  cases texts with
  | nil => rfl
  | cons text texts =>
      have size : (text :: texts).length ≤
          (dumpsItems ensureAscii writeNumber ((text :: texts).map .str)).length :=
        length_le_dumpsItems _
      obtain ⟨body, written⟩ : ∃ body, dumpsItems ensureAscii writeNumber
          ((text :: texts).map .str) ++ [']'] = '"' :: body := by
        cases texts with
        | nil => exact ⟨_, rfl⟩
        | cons => exact ⟨_, rfl⟩
      have shape : dumps ensureAscii writeNumber (.list ((text :: texts).map .str)) =
          '[' :: '"' :: body := by
        rw [dumps, List.cons_append, written]
      have enough : texts.length + 2 ≤ 2 * (body.length + 2) := by
        have length := congrArg List.length written
        simp only [List.length_append, List.length_cons] at length size
        omega
      have items : scanItems (2 * (body.length + 2))
          (dumpsItems ensureAscii writeNumber ((text :: texts).map .str) ++ [']']) =
            some ((text :: texts).map .str, []) := scanItems_strings _ _ _ enough
      rw [written] at items
      have value : scanValue (2 * (body.length + 2) + 1) ('[' :: '"' :: body) =
          some (.list ((text :: texts).map .str), []) := by
        rw [scanValue]
        change (scanItems (2 * (body.length + 2)) ('"' :: body)).map _ = _
        rw [items]
        rfl
      unfold loads
      rw [shape]
      change (match scanValue (2 * (body.length + 2) + 1) ('[' :: '"' :: body) with
        | some (value, rest) => if skipSpace rest = [] then some value else none
        | none => none) = _
      rw [value]
      rfl

end Dumps

end Json

end YouMi.Python

import YouMi.Python.JsonText

/-!
# What `json.dumps` writes is read again

A value whose numbers are written as they would be read, and whose objects have no key
twice, comes back from `json.loads` as it was.
-/

namespace YouMi.Python.Json

open YouMi.Library

/-! ## Numbers -/

/-- The text does not go on with a number that stands before it. -/
def EndsNumber (text : List Char) : Prop :=
  ∀ c ∈ text.head?, isDigit c = false ∧ c ≠ '.' ∧ c ≠ 'e' ∧ c ≠ 'E'

/-- The text begins with a value. -/
def BeginsValue (text : List Char) : Prop :=
  ∃ c later, text = c :: later ∧ isJsonSpace c = false ∧ c ≠ ']' ∧ c ≠ '\uFEFF'

/-- The literal is read as a number that ends where it does. -/
structure IsNumber (literal : List Char) : Prop where
  begins : BeginsValue literal
  scanned : ∀ (fuel : Nat) (rest : List Char), EndsNumber rest →
    scanValue (fuel + 1) (literal ++ rest) = some (.number literal, rest)

theorem endsNumber_cons {c : Char} {rest : List Char}
    (other : isDigit c = false ∧ c ≠ '.' ∧ c ≠ 'e' ∧ c ≠ 'E') : EndsNumber (c :: rest) := by
  intro first same
  cases same
  exact other

theorem endsNumber_nil : EndsNumber [] := by
  intro c member
  cases member

theorem takeWhile_append_of_endsNumber {digits rest : List Char}
    (all : ∀ c ∈ digits, isDigit c = true) (ends : EndsNumber rest) :
    (digits ++ rest).takeWhile isDigit = digits ∧ (digits ++ rest).dropWhile isDigit = rest := by
  have none : rest.takeWhile isDigit = [] ∧ rest.dropWhile isDigit = rest := by
    cases rest with
    | nil => exact ⟨rfl, rfl⟩
    | cons c rest =>
        have other := (ends c rfl).1
        rw [List.takeWhile_cons_of_neg (by simp [other]), List.dropWhile_cons_of_neg (by simp [other])]
        exact ⟨rfl, rfl⟩
  rw [List.takeWhile_append_of_pos all, List.dropWhile_append_of_pos all, none.1, none.2,
    List.append_nil]
  exact ⟨rfl, rfl⟩

/-- Where the digits end, neither a fraction nor an exponent follows. -/
theorem scanFraction_of_endsNumber {rest : List Char} (ends : EndsNumber rest) :
    scanFraction rest = ([], rest) := by
  unfold scanFraction
  split
  · exact absurd rfl (ends _ rfl).2.1
  · rfl

theorem scanExponent_of_endsNumber {rest : List Char} (ends : EndsNumber rest) :
    scanExponent rest = ([], rest) := by
  unfold scanExponent
  split
  · rename_i e rest
    have other := (ends e rfl).2.2
    exact if_neg fun isE => isE.elim other.1 other.2
  · rfl

theorem isDigit_eq (c : Char) : isDigit c = c.isDigit := by
  unfold isDigit Char.isDigit
  rfl

theorem digitChar_ne_zero : ∀ n < 10, 0 < n → n.digitChar ≠ '0' := by decide

/-- The first digit of a number is no zero, unless it is the only one. -/
theorem toDigits_shape (n : Nat) :
    Nat.toDigits 10 n = ['0'] ∨ ∃ c rest, Nat.toDigits 10 n = c :: rest ∧ c ≠ '0' := by
  induction n using Nat.strongRecOn with
  | ind n ih =>
      rcases Nat.lt_or_ge n 10 with small | large
      · rw [Nat.toDigits_of_lt_base small]
        rcases Nat.eq_zero_or_pos n with rfl | positive
        · exact .inl rfl
        · exact .inr ⟨n.digitChar, [], rfl, digitChar_ne_zero n small positive⟩
      · rw [Nat.toDigits_of_base_le (by decide) large]
        rcases ih (n / 10) (by omega) with zero | ⟨c, rest, shape, other⟩
        · have value := Nat.ofDigitChars_ten_toDigits (n := n / 10)
          rw [zero] at value
          have : (0 : Nat) = n / 10 := value
          omega
        · exact .inr ⟨c, rest ++ _, by rw [shape]; rfl, other⟩

theorem scanInteger_toDigits (n : Nat) {rest : List Char} (ends : EndsNumber rest) :
    scanInteger (Nat.toDigits 10 n ++ rest) = some (Nat.toDigits 10 n, rest) := by
  have digits : ∀ c ∈ Nat.toDigits 10 n, isDigit c = true := fun c member =>
    (isDigit_eq c).trans (Nat.isDigit_of_mem_toDigits (by decide) (by decide) member)
  rcases toDigits_shape n with zero | ⟨c, later, shape, other⟩
  · rw [zero]
    rfl
  · rw [shape] at digits ⊢
    have split := takeWhile_append_of_endsNumber
      (fun d member => digits d (List.mem_cons_of_mem c member)) ends
    rw [List.cons_append, scanInteger.eq_2 c _ other, if_pos (digits c List.mem_cons_self),
      split.1, split.2]

theorem ne_of_isDigit {c other : Char} (digit : isDigit c = true) (not : isDigit other = false) :
    c ≠ other := by
  rintro rfl
  rw [digit] at not
  cases not

theorem isDigit_of_toDigits {n : Nat} {c : Char} {rest : List Char}
    (shape : Nat.toDigits 10 n = c :: rest) : isDigit c = true := by
  have member : c ∈ Nat.toDigits 10 n := by
    rw [shape]
    exact List.mem_cons_self
  exact (isDigit_eq c).trans (Nat.isDigit_of_mem_toDigits (by decide) (by decide) member)

theorem scanValue_of_digit (fuel : Nat) {c : Char} {rest : List Char} (digit : isDigit c = true) :
    scanValue (fuel + 1) (c :: rest) = scanNumber (c :: rest) := by
  rw [scanValue.eq_5 _ _ (fun _ same => ne_of_isDigit digit (by decide) (List.cons.inj same).1)
    (fun _ same => ne_of_isDigit digit (by decide) (List.cons.inj same).1)
    (fun _ same => ne_of_isDigit digit (by decide) (List.cons.inj same).1)]
  unfold scanWord
  split
  case h_7 => rfl
  all_goals
    rename_i same
    exact absurd (List.cons.inj same).1 (ne_of_isDigit digit (by decide))

theorem beginsValue_of_digit {c : Char} (digit : isDigit c = true) (rest : List Char) :
    BeginsValue (c :: rest) := by
  have blank : c ≠ ' ' := ne_of_isDigit digit (by decide)
  have tab : c ≠ '\t' := ne_of_isDigit digit (by decide)
  have newline : c ≠ '\n' := ne_of_isDigit digit (by decide)
  have carriage : c ≠ '\r' := ne_of_isDigit digit (by decide)
  refine ⟨c, rest, rfl, ?_, ne_of_isDigit digit (by decide), ne_of_isDigit digit (by decide)⟩
  simp [isJsonSpace, blank, tab, newline, carriage]

/-- The digits of a natural number are read as they are. -/
theorem isNumber_toDigits (n : Nat) : IsNumber (Nat.toDigits 10 n) where
  begins := by
    cases shape : Nat.toDigits 10 n with
    | nil => exact absurd shape Nat.toDigits_ne_nil
    | cons c rest => exact beginsValue_of_digit (isDigit_of_toDigits shape) rest
  scanned fuel rest ends := by
    have integer := scanInteger_toDigits n ends
    cases shape : Nat.toDigits 10 n with
    | nil => exact absurd shape Nat.toDigits_ne_nil
    | cons c later =>
        have digit := isDigit_of_toDigits shape
        have unsigned : c ≠ '-' := ne_of_isDigit digit (by decide)
        rw [shape, List.cons_append] at integer
        rw [List.cons_append, scanValue_of_digit fuel digit]
        have number : scanNumber (c :: (later ++ rest)) =
            (scanInteger (c :: (later ++ rest))).map fun scanned =>
              (.number ([] ++ scanned.1 ++ (scanFraction scanned.2).1 ++
                (scanExponent (scanFraction scanned.2).2).1),
                (scanExponent (scanFraction scanned.2).2).2) := by
          unfold scanNumber
          split
          rename_i same
          split at same
          · rename_i minus
            exact absurd (List.cons.inj minus).1 unsigned
          · cases same
            rfl
        rw [number, integer]
        simp only [Option.map_some, scanFraction_of_endsNumber ends,
          scanExponent_of_endsNumber ends, List.nil_append, List.append_nil]

/-! ## Values -/

/-- Every number is written as it would be read, and no object has a key twice. -/
inductive Written (writeNumber : List Char → List Char) : Json → Prop
  | null : Written writeNumber .null
  | bool (value : Bool) : Written writeNumber (.bool value)
  | number (literal : List Char) (same : writeNumber literal = literal)
      (number : IsNumber literal) : Written writeNumber (.number literal)
  | str (text : List Char) : Written writeNumber (.str text)
  | list (items : List Json) (each : ∀ item ∈ items, Written writeNumber item) :
      Written writeNumber (.list items)
  | dict (entries : List (List Char × Json)) (distinct : (entries.map Prod.fst).Nodup)
      (each : ∀ entry ∈ entries, Written writeNumber entry.2) :
      Written writeNumber (.dict entries)

variable {ensureAscii : Bool} {writeNumber : List Char → List Char}

theorem beginsValue_cons {c : Char} {later : List Char}
    (other : isJsonSpace c = false ∧ c ≠ ']' ∧ c ≠ '\uFEFF') : BeginsValue (c :: later) :=
  ⟨c, later, rfl, other⟩

theorem BeginsValue.append {text : List Char} (begins : BeginsValue text) (rest : List Char) :
    BeginsValue (text ++ rest) := by
  obtain ⟨c, later, rfl, other⟩ := begins
  exact ⟨c, later ++ rest, rfl, other⟩

theorem BeginsValue.skipSpace {text : List Char} (begins : BeginsValue text) :
    skipSpace text = text := by
  obtain ⟨c, later, rfl, space, -⟩ := begins
  exact List.dropWhile_cons_of_neg (by simp [space])

theorem skipSpace_blank (text : List Char) : skipSpace (' ' :: text) = skipSpace text :=
  List.dropWhile_cons_of_pos (by decide)

/-- What is written of a value begins with it. -/
theorem Written.begins {value : Json} (written : Written writeNumber value) :
    BeginsValue (dumps ensureAscii writeNumber value) := by
  cases written with
  | null => rw [dumps]; exact beginsValue_cons (by decide)
  | bool value => cases value <;> (rw [dumps]; exact beginsValue_cons (by decide))
  | number literal same number =>
      rw [dumps, same]
      exact number.begins
  | str text => rw [dumps]; exact beginsValue_cons (by decide)
  | list items each => rw [dumps]; exact beginsValue_cons (by decide)
  | dict entries distinct each => rw [dumps]; exact beginsValue_cons (by decide)

theorem BeginsValue.length_pos {text : List Char} (begins : BeginsValue text) :
    0 < text.length := by
  obtain ⟨c, later, rfl, -⟩ := begins
  exact Nat.succ_pos _

/-- The value is read from what is written of it, whatever follows. -/
def ReadAgain (ensureAscii : Bool) (writeNumber : List Char → List Char) (value : Json) : Prop :=
  ∀ (fuel : Nat) (rest : List Char), EndsNumber rest →
    2 * (dumps ensureAscii writeNumber value).length ≤ fuel →
      scanValue fuel (dumps ensureAscii writeNumber value ++ rest) = some (value, rest)

theorem begins_dumpsItems {item : Json} {items : List Json} (written : Written writeNumber item) :
    BeginsValue (dumpsItems ensureAscii writeNumber (item :: items)) := by
  cases items with
  | nil =>
      rw [dumpsItems]
      exact written.begins
  | cons next items =>
      rw [dumpsItems_cons]
      exact written.begins.append _

/-- Items are read one after another, as the values they are. -/
theorem scanItems_dumpsItems {items : List Json} (some_item : items ≠ [])
    (each : ∀ item ∈ items, Written writeNumber item)
    (again : ∀ item ∈ items, ReadAgain ensureAscii writeNumber item) (fuel : Nat)
    (rest : List Char)
    (enough : 2 * (dumpsItems ensureAscii writeNumber items).length < fuel) :
    scanItems fuel (dumpsItems ensureAscii writeNumber items ++ ']' :: rest) =
      some (items, rest) := by
  induction items generalizing fuel with
  | nil => exact absurd rfl some_item
  | cons item items ih =>
      obtain ⟨fuel, rfl⟩ : ∃ less, fuel = less + 1 := ⟨fuel - 1, by omega⟩
      have first := again item List.mem_cons_self
      cases items with
      | nil =>
          rw [dumpsItems] at enough ⊢
          rw [scanItems, first fuel _ (endsNumber_cons (by decide)) (by omega)]
          rfl
      | cons next items =>
          have later := ih (List.cons_ne_nil next items)
            (fun item member => each item (List.mem_cons_of_mem _ member))
            (fun item member => again item (List.mem_cons_of_mem _ member))
          have begins : BeginsValue (dumpsItems ensureAscii writeNumber (next :: items)) :=
            begins_dumpsItems (each next (List.mem_cons_of_mem _ List.mem_cons_self))
          rw [dumpsItems_cons] at enough ⊢
          simp only [List.length_append, List.length_cons] at enough
          rw [List.append_assoc, List.cons_append, List.cons_append, scanItems,
            first fuel _ (endsNumber_cons (by decide)) (by omega)]
          change (scanItems fuel (skipSpace (' ' :: _))).map _ = _
          rw [skipSpace_blank, (begins.append _).skipSpace, later fuel (by omega)]
          rfl

theorem dumpsEntries_cons (entry next : List Char × Json) (entries : List (List Char × Json)) :
    dumpsEntries ensureAscii writeNumber (entry :: next :: entries) =
      dumpsString ensureAscii entry.1 ++ ':' :: ' ' :: (dumps ensureAscii writeNumber entry.2 ++
        ',' :: ' ' :: dumpsEntries ensureAscii writeNumber (next :: entries)) := by
  rw [dumpsEntries]
  · simp
  · exact List.cons_ne_nil next entries

variable (ensureAscii writeNumber) in
theorem exists_dumpsEntries (entry : List Char × Json) (entries : List (List Char × Json)) :
    ∃ later, dumpsEntries ensureAscii writeNumber (entry :: entries) = '"' :: later := by
  cases entries with
  | nil => exact ⟨_, rfl⟩
  | cons next entries =>
      rw [dumpsEntries_cons]
      exact ⟨_, rfl⟩

theorem begins_dumpsEntries (entry : List Char × Json) (entries : List (List Char × Json)) :
    BeginsValue (dumpsEntries ensureAscii writeNumber (entry :: entries)) := by
  obtain ⟨later, same⟩ := exists_dumpsEntries ensureAscii writeNumber entry entries
  rw [same]
  exact beginsValue_cons (by decide)

/-- A key that has been written is read, up to its value. -/
theorem scanKey_dumpsString (key : List Char) {text : List Char} (begins : BeginsValue text) :
    scanKey (dumpsString ensureAscii key ++ ':' :: ' ' :: text) = some (key, text) := by
  have string := scanString_encoded ensureAscii key (':' :: ' ' :: text)
  rw [dumpsString, List.cons_append, List.cons_append, List.append_assoc, List.singleton_append]
  rw [scanKey, string]
  change some (key, skipSpace (' ' :: text)) = _
  rw [skipSpace_blank, begins.skipSpace]

theorem scanEntries_dumpsEntries {entries : List (List Char × Json)} (some_entry : entries ≠ [])
    (each : ∀ entry ∈ entries, Written writeNumber entry.2)
    (again : ∀ entry ∈ entries, ReadAgain ensureAscii writeNumber entry.2) (fuel : Nat)
    (rest : List Char)
    (enough : 2 * (dumpsEntries ensureAscii writeNumber entries).length < fuel) :
    scanEntries fuel (dumpsEntries ensureAscii writeNumber entries ++ '}' :: rest) =
      some (entries, rest) := by
  induction entries generalizing fuel with
  | nil => exact absurd rfl some_entry
  | cons entry entries ih =>
      obtain ⟨fuel, rfl⟩ : ∃ less, fuel = less + 1 := ⟨fuel - 1, by omega⟩
      obtain ⟨key, value⟩ := entry
      have first : ReadAgain ensureAscii writeNumber value := again (key, value) List.mem_cons_self
      have begins : BeginsValue (dumps ensureAscii writeNumber value) :=
        (each (key, value) List.mem_cons_self).begins
      cases entries with
      | nil =>
          rw [dumpsEntries] at enough ⊢
          simp only [List.length_append] at enough
          rw [List.append_assoc, List.append_assoc, List.cons_append, List.singleton_append,
            scanEntries, scanKey_dumpsString key (begins.append _)]
          dsimp only
          rw [first fuel _ (endsNumber_cons (by decide)) (by omega)]
          rfl
      | cons next entries =>
          have later := ih (List.cons_ne_nil next entries)
            (fun entry member => each entry (List.mem_cons_of_mem _ member))
            (fun entry member => again entry (List.mem_cons_of_mem _ member))
          rw [dumpsEntries_cons] at enough ⊢
          simp only [List.length_append, List.length_cons] at enough
          rw [List.append_assoc, List.cons_append, List.cons_append, List.append_assoc,
            scanEntries, scanKey_dumpsString key (begins.append _), List.cons_append,
            List.cons_append]
          dsimp only
          rw [first fuel _ (endsNumber_cons (by decide)) (by omega)]
          change (scanEntries fuel (skipSpace (' ' :: _))).map _ = _
          rw [skipSpace_blank, ((begins_dumpsEntries next entries).append _).skipSpace,
            later fuel (by omega)]
          rfl

theorem exists_of_two_mul_le {length fuel : Nat} (enough : 2 * length ≤ fuel)
    (positive : 0 < length) : ∃ less, fuel = less + 1 := ⟨fuel - 1, by omega⟩

/-- A written value is read again, by induction on the value. -/
theorem Written.readAgain {value : Json} (written : Written writeNumber value) :
    ReadAgain ensureAscii writeNumber value := by
  induction written with
  | null =>
      intro fuel rest _ enough
      obtain ⟨fuel, rfl⟩ := exists_of_two_mul_le enough (by rw [dumps]; exact Nat.succ_pos _)
      rw [dumps]
      rfl
  | bool value =>
      intro fuel rest _ enough
      obtain ⟨fuel, rfl⟩ := exists_of_two_mul_le enough
        (by cases value <;> (rw [dumps]; exact Nat.succ_pos _))
      cases value <;> (rw [dumps]; rfl)
  | number literal same number =>
      intro fuel rest ends enough
      rw [dumps, same] at enough ⊢
      obtain ⟨fuel, rfl⟩ := exists_of_two_mul_le enough number.begins.length_pos
      exact number.scanned fuel rest ends
  | str text =>
      intro fuel rest _ enough
      obtain ⟨fuel, rfl⟩ := exists_of_two_mul_le enough (by rw [dumps]; exact Nat.succ_pos _)
      rw [dumps]
      exact scanValue_dumpsString fuel text rest
  | list items each again =>
      intro fuel rest _ enough
      rw [dumps] at enough ⊢
      obtain ⟨fuel, rfl⟩ := exists_of_two_mul_le enough (Nat.succ_pos _)
      rw [List.cons_append, List.cons_append, List.append_assoc, List.singleton_append, scanValue]
      cases items with
      | nil =>
          rw [dumpsItems]
          rfl
      | cons item items =>
          have begins : BeginsValue (dumpsItems ensureAscii writeNumber (item :: items)) :=
            begins_dumpsItems (each item List.mem_cons_self)
          simp only [List.length_append, List.length_cons] at enough
          rw [(begins.append _).skipSpace]
          have scanned := scanItems_dumpsItems (List.cons_ne_nil item items) each again fuel rest
            (by omega)
          obtain ⟨c, later, same, -, other, -⟩ := begins
          rw [same, List.cons_append] at scanned ⊢
          split
          · rename_i closed
            exact absurd (List.cons.inj closed).1 other
          · rw [scanned]
            rfl
  | dict entries distinct each again =>
      intro fuel rest _ enough
      rw [dumps] at enough ⊢
      obtain ⟨fuel, rfl⟩ := exists_of_two_mul_le enough (Nat.succ_pos _)
      rw [List.cons_append, List.cons_append, List.append_assoc, List.singleton_append, scanValue]
      cases entries with
      | nil =>
          rw [dumpsEntries]
          rfl
      | cons entry entries =>
          have begins : BeginsValue (dumpsEntries ensureAscii writeNumber (entry :: entries)) :=
            begins_dumpsEntries entry entries
          simp only [List.length_append, List.length_cons] at enough
          rw [(begins.append _).skipSpace]
          have scanned := scanEntries_dumpsEntries (List.cons_ne_nil entry entries) each again fuel
            rest (by omega)
          have assigned := OrderedDict.foldl_assign_append (entry :: entries) [] distinct
          obtain ⟨later, same⟩ := exists_dumpsEntries ensureAscii writeNumber entry entries
          rw [same, List.cons_append] at scanned ⊢
          change (scanEntries fuel ('"' :: (later ++ '}' :: rest))).map _ = _
          rw [scanned]
          exact congrArg (fun entries => some (Json.dict entries, rest)) assigned

/-- `json.loads(json.dumps(value)) == value` for a written value. -/
theorem Written.loads_dumps {value : Json} (written : Written writeNumber value) :
    loads (dumps ensureAscii writeNumber value) = some value := by
  have begins : BeginsValue (dumps ensureAscii writeNumber value) := written.begins
  have again : ReadAgain ensureAscii writeNumber value := written.readAgain
  have scanned := again (2 * (dumps ensureAscii writeNumber value).length + 1) [] endsNumber_nil
    (Nat.le_succ _)
  rw [List.append_nil] at scanned
  have first : (dumps ensureAscii writeNumber value).head? ≠ some '\uFEFF' := by
    obtain ⟨c, later, same, -, -, mark⟩ := begins
    rw [same]
    exact fun is_mark => mark (Option.some.inj is_mark)
  unfold loads
  rw [if_neg first, begins.skipSpace, scanned]
  rfl

end YouMi.Python.Json

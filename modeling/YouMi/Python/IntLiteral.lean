import YouMi.Python.Text

/-!
# Integer literals

The texts `int()` accepts, as a grammar: white space, a sign, and decimal digits of any
script with single underscores between them.  The reading function accepts exactly these.
-/

namespace YouMi.Python

/-- Decimal digits with single underscores between them, and the number they denote. -/
inductive Numeral : List Char → Nat → Prop
  | first {c digit} (isDigit : decimalValue c = some digit) : Numeral [c] digit
  | next {text n c digit} (before : Numeral text n) (isDigit : decimalValue c = some digit) :
      Numeral (text ++ [c]) (n * 10 + digit)
  | underscore {text n c digit} (before : Numeral text n)
      (isDigit : decimalValue c = some digit) : Numeral (text ++ ['_', c]) (n * 10 + digit)

inductive Signed : List Char → Int → Prop
  | unsigned {text n} (numeral : Numeral text n) : Signed text n
  | plus {text n} (numeral : Numeral text n) : Signed ('+' :: text) n
  | minus {text n} (numeral : Numeral text n) : Signed ('-' :: text) (-n)

/-- A text which `int()` accepts, and the integer it denotes. -/
def IntLiteral (text : List Char) (value : Int) : Prop :=
  ∃ before literal after, text = before ++ (literal ++ after) ∧
    (∀ c ∈ before, isIntSpace c = true) ∧ (∀ c ∈ after, isIntSpace c = true) ∧
    Signed literal value

/-! ## Digits -/

theorem decimalValue_underscore : decimalValue '_' = none := by decide

/-- Reading goes on after what has been read. -/
theorem readDigits_append {value read : Nat} {text : List Char}
    (done : readDigits value text = some read) (rest : List Char) :
    readDigits value (text ++ rest) = readDigits read rest := by
  fun_induction readDigits value text with
  | case1 value =>
      cases done
      rfl
  | case2 value c tail digit isDigit ih =>
      rw [List.cons_append, List.cons_append, readDigits, isDigit]
      exact ih done
  | case3 => cases done
  | case4 value c tail notUnderscore digit isDigit ih =>
      rw [List.cons_append, readDigits]
      · rw [isDigit]
        exact ih done
      · rintro d others rfl _
        cases decimalValue_underscore.symm.trans isDigit
  | case5 => cases done

theorem numeral_readDigits {value n : Nat} {text before : List Char}
    (read : readDigits value text = some n) (numeral : Numeral before value) :
    Numeral (before ++ text) n := by
  fun_induction readDigits value text generalizing before with
  | case1 value =>
      cases read
      rwa [List.append_nil]
  | case2 value c rest digit isDigit ih =>
      have more := ih read (.underscore numeral isDigit)
      rwa [List.append_assoc] at more
  | case3 => cases read
  | case4 value c rest notUnderscore digit isDigit ih =>
      have more := ih read (.next numeral isDigit)
      rwa [List.append_assoc] at more
  | case5 => cases read

theorem readNat_append {text : List Char} {n : Nat} (done : readNat text = some n)
    (rest : List Char) : readNat (text ++ rest) = readDigits n rest := by
  cases text with
  | nil => cases done
  | cons c tail =>
      obtain ⟨digit, isDigit, read⟩ := Option.bind_eq_some_iff.mp done
      rw [List.cons_append, readNat, isDigit]
      exact readDigits_append read rest

theorem readNat_eq_some_iff {text : List Char} {n : Nat} :
    readNat text = some n ↔ Numeral text n := by
  constructor
  · intro read
    cases text with
    | nil => cases read
    | cons c rest =>
        obtain ⟨digit, isDigit, read⟩ := Option.bind_eq_some_iff.mp read
        exact numeral_readDigits read (.first isDigit)
  · intro numeral
    induction numeral with
    | first isDigit => simp [readNat, isDigit, readDigits]
    | next before isDigit ih =>
        rw [readNat_append ih, readDigits, isDigit]
        · rfl
        · rintro d others rfl _
          cases decimalValue_underscore.symm.trans isDigit
    | underscore before isDigit ih => rw [readNat_append ih, readDigits, isDigit]; rfl

/-! ## Signs and white space -/

theorem Numeral.char {text : List Char} {n : Nat} (numeral : Numeral text n) {c : Char}
    (member : c ∈ text) : c = '_' ∨ (decimalValue c).isSome := by
  induction numeral with
  | first isDigit =>
      rw [List.mem_singleton.mp member, isDigit]
      exact .inr rfl
  | next before isDigit ih =>
      rcases List.mem_append.mp member with inside | last
      · exact ih inside
      · rw [List.mem_singleton.mp last, isDigit]
        exact .inr rfl
  | underscore before isDigit ih =>
      rcases List.mem_append.mp member with inside | last
      · exact ih inside
      · simp only [List.mem_cons, List.not_mem_nil, or_false] at last
        rcases last with rfl | rfl
        · exact .inl rfl
        · rw [isDigit]
          exact .inr rfl

theorem Signed.char {text : List Char} {value : Int} (signed : Signed text value) {c : Char}
    (member : c ∈ text) : isIntSpace c = false ∧ c ≠ '.' := by
  have inNumeral {digits : List Char} {n : Nat} (numeral : Numeral digits n)
      (inside : c ∈ digits) : isIntSpace c = false ∧ c ≠ '.' := by
    rcases numeral.char inside with rfl | digit
    · decide
    · refine ⟨by rw [isIntSpace, not_isSpace_of_decimalValue digit, Bool.false_and], ?_⟩
      rintro rfl
      cases digit
  cases signed with
  | unsigned numeral => exact inNumeral numeral member
  | plus numeral =>
      rcases List.mem_cons.mp member with rfl | inside
      · decide
      · exact inNumeral numeral inside
  | minus numeral =>
      rcases List.mem_cons.mp member with rfl | inside
      · decide
      · exact inNumeral numeral inside

/-- A text that begins with a sign is no numeral. -/
theorem Numeral.head {c : Char} {rest : List Char} {n : Nat} (numeral : Numeral (c :: rest) n) :
    (decimalValue c).isSome := by
  obtain ⟨digit, isDigit, _⟩ := Option.bind_eq_some_iff.mp (readNat_eq_some_iff.mpr numeral)
  rw [isDigit]
  rfl

/-- A text is what is left of it between the white space at its ends. -/
theorem exists_trim (p : Char → Bool) (text : List Char) :
    ∃ before after, text = before ++ (trim p text ++ after) ∧
      (∀ c ∈ before, p c = true) ∧ ∀ c ∈ after, p c = true := by
  refine ⟨text.takeWhile p, ((text.dropWhile p).reverse.takeWhile p).reverse, ?_, ?_, ?_⟩
  · rw [trim, ← List.reverse_append, List.takeWhile_append_dropWhile, List.reverse_reverse,
      List.takeWhile_append_dropWhile]
  · exact fun c member => List.mem_takeWhile_imp member
  · exact fun c member => List.mem_takeWhile_imp (List.mem_reverse.mp member)

/-- White space put around a text is trimmed away. -/
theorem trim_pad {p : Char → Bool} {before after : List Char} (text : List Char)
    (left : ∀ c ∈ before, p c = true) (right : ∀ c ∈ after, p c = true) :
    trim p (before ++ (text ++ after)) = trim p text := by
  rw [← trim_dropWhile, List.dropWhile_append_of_pos left, trim_dropWhile, ← trim_dropWhile_end,
    List.reverse_append, List.dropWhile_append_of_pos fun c member =>
      right c (List.mem_reverse.mp member), trim_dropWhile_end]

/-! ## The language of `int` -/

theorem parseInt_of_signed {text : List Char} {value : Int} (signed : Signed text value) :
    parseInt text = some value := by
  unfold parseInt
  rw [trim_eq_self fun c member => (signed.char member).1]
  cases signed with
  | unsigned numeral =>
      split
      · cases numeral.head
      · cases numeral.head
      · rw [readNat_eq_some_iff.mpr numeral]
        rfl
  | @plus digits n numeral =>
      change (readNat digits).map Int.ofNat = _
      rw [readNat_eq_some_iff.mpr numeral]
      rfl
  | @minus digits n numeral =>
      change ((readNat digits).map fun n => -Int.ofNat n) = _
      rw [readNat_eq_some_iff.mpr numeral]
      rfl

theorem signed_of_parseInt {text : List Char} {value : Int} (read : parseInt text = some value) :
    Signed (trim isIntSpace text) value := by
  unfold parseInt at read
  split at read
  · rename_i rest shape
    rw [shape]
    obtain ⟨n, digits, rfl⟩ := Option.map_eq_some_iff.mp read
    exact .plus (readNat_eq_some_iff.mp digits)
  · rename_i rest shape
    rw [shape]
    obtain ⟨n, digits, rfl⟩ := Option.map_eq_some_iff.mp read
    exact .minus (readNat_eq_some_iff.mp digits)
  · obtain ⟨n, digits, rfl⟩ := Option.map_eq_some_iff.mp read
    exact .unsigned (readNat_eq_some_iff.mp digits)

/-- `int()` accepts the literals, and reads the integers they denote. -/
theorem parseInt_eq_some_iff {text : List Char} {value : Int} :
    parseInt text = some value ↔ IntLiteral text value := by
  constructor
  · intro read
    obtain ⟨before, after, whole, left, right⟩ := exists_trim isIntSpace text
    exact ⟨before, _, after, whole, left, right, signed_of_parseInt read⟩
  · rintro ⟨before, literal, after, rfl, left, right, signed⟩
    rw [← parseInt_of_signed signed]
    exact parseInt_congr_trim (trim_pad literal left right)

theorem IntLiteral.not_mem_dot {text : List Char} {value : Int} (literal : IntLiteral text value) :
    '.' ∉ text := by
  obtain ⟨before, digits, after, rfl, left, right, signed⟩ := literal
  simp only [List.mem_append, not_or]
  refine ⟨fun member => ?_, fun member => (signed.char member).2 rfl, fun member => ?_⟩
  · exact absurd (left '.' member) (by decide)
  · exact absurd (right '.' member) (by decide)

end YouMi.Python

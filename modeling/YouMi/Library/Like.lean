import Mathlib.Data.List.Basic
import Mathlib.Data.List.Infix

/-!
# The `LIKE` of SQL

In a pattern `%` stands for any characters and `_` for any one, and letters of ASCII match in
either case.  Pattern and text end at their first NUL.
-/

namespace YouMi.Library

def likeMatch : List Char → List Char → Bool
  | [], text => text.isEmpty
  | c :: pattern, text =>
      if c = '%' then text.tails.any fun rest => likeMatch pattern rest
      else
        match text with
        | [] => false
        | d :: rest => (c = '_' || c.toLower = d.toLower) && likeMatch pattern rest

/-- A text as SQLite's functions on C strings read it. -/
def cString (text : List Char) : List Char := text.takeWhile (· ≠ '\x00')

/-- `text LIKE pattern`. -/
def like (text pattern : List Char) : Bool := likeMatch (cString pattern) (cString text)

/-- `text LIKE '%…%'`. -/
def likeAround (text word : List Char) : Bool := like text ('%' :: word ++ ['%'])

theorem likeMatch_cons_nil {c : Char} (percent : c ≠ '%') (pattern : List Char) :
    likeMatch (c :: pattern) [] = false := if_neg percent

theorem likeMatch_cons_cons {c : Char} (percent : c ≠ '%') (d : Char) (pattern text : List Char) :
    likeMatch (c :: pattern) (d :: text) =
      ((c = '_' || c.toLower = d.toLower) && likeMatch pattern text) := if_neg percent

theorem likeMatch_percent {pattern text : List Char} :
    likeMatch ('%' :: pattern) text = true ↔ ∃ rest, rest <:+ text ∧ likeMatch pattern rest := by
  have any : likeMatch ('%' :: pattern) text =
      text.tails.any fun rest => likeMatch pattern rest := if_pos rfl
  rw [any, List.any_eq_true]
  exact exists_congr fun rest => and_congr_left fun _ => List.mem_tails rest text

theorem likeMatch_percent_nil (text : List Char) : likeMatch ['%'] text = true :=
  likeMatch_percent.mpr ⟨[], List.nil_suffix, rfl⟩

/-- A word without wildcards matches what is equal to it up to the case of its letters. -/
theorem likeMatch_append_iff {word pattern text : List Char}
    (plain : '%' ∉ word ∧ '_' ∉ word) :
    likeMatch (word ++ pattern) text = true ↔ ∃ read rest, text = read ++ rest ∧
      read.map Char.toLower = word.map Char.toLower ∧ likeMatch pattern rest := by
  induction word generalizing text with
  | nil =>
      constructor
      · exact fun found => ⟨[], text, rfl, rfl, found⟩
      · rintro ⟨read, rest, rfl, same, found⟩
        rw [List.map_eq_nil_iff.mp same]
        exact found
  | cons c word ih =>
      have percent : c ≠ '%' := fun same => plain.1 (by simp [same])
      have single : c ≠ '_' := fun same => plain.2 (by simp [same])
      have later : '%' ∉ word ∧ '_' ∉ word :=
        plain.imp (mt (List.mem_cons_of_mem c)) (mt (List.mem_cons_of_mem c))
      rw [List.cons_append]
      constructor
      · intro found
        cases text with
        | nil =>
            rw [likeMatch_cons_nil percent] at found
            cases found
        | cons d text =>
            rw [likeMatch_cons_cons percent] at found
            obtain ⟨first, found⟩ := Bool.and_eq_true_iff.mp found
            obtain ⟨read, rest, rfl, same, found⟩ := (ih later).mp found
            have equal : c.toLower = d.toLower := by simpa [single] using first
            exact ⟨d :: read, rest, rfl, by rw [List.map_cons, List.map_cons, same, equal], found⟩
      · rintro ⟨read, rest, rfl, same, found⟩
        cases read with
        | nil => cases same
        | cons d read =>
            obtain ⟨first, same⟩ := List.cons.inj same
            rw [List.cons_append, likeMatch_cons_cons percent,
              (ih later).mpr ⟨read, rest, rfl, same, found⟩, first]
            simp

/-- `%word%` looks for the word up to the case of its letters. -/
theorem likeMatch_around_iff {word text : List Char} (plain : '%' ∉ word ∧ '_' ∉ word) :
    likeMatch ('%' :: word ++ ['%']) text = true ↔
      word.map Char.toLower <:+: text.map Char.toLower := by
  rw [List.cons_append, likeMatch_percent]
  constructor
  · rintro ⟨_, ⟨before, rfl⟩, found⟩
    obtain ⟨read, after, rfl, same, -⟩ := (likeMatch_append_iff plain).mp found
    refine ⟨before.map Char.toLower, after.map Char.toLower, ?_⟩
    rw [← same, ← List.map_append, ← List.map_append, List.append_assoc]
  · rintro ⟨before, after, whole⟩
    obtain ⟨start, after', rfl, first, rfl⟩ := List.map_eq_append_iff.mp whole.symm
    obtain ⟨before', read, rfl, rfl, same⟩ := List.map_eq_append_iff.mp first
    refine ⟨read ++ after', ⟨before', (List.append_assoc ..).symm⟩, ?_⟩
    exact (likeMatch_append_iff plain).mpr ⟨read, after', rfl, same, likeMatch_percent_nil after'⟩

end YouMi.Library

import Mathlib.Data.List.Nodup
import Mathlib.Logic.Function.Basic

/-!
# Tables of a database file

A table has columns, any number of rows told apart by their row ids, and a cell for
each column of a row.  A script runs statements until one of them fails; what was
done before the failure stays.
-/

namespace YouMi.Library

/-! ## Scripts -/

/-- What a statement returns or raises, and the database it leaves. -/
abbrev Script (ε σ : Type*) := σ → Except ε Unit × σ

namespace Script

variable {ε σ : Type*}

def done : Script ε σ := fun s => (.ok (), s)

def fail (error : ε) : Script ε σ := fun s => (.error error, s)

/-- The second script, unless the first raises. -/
def andThen (first second : Script ε σ) : Script ε σ := fun s =>
  match first s with
  | (.error error, s) => (.error error, s)
  | (.ok (), s) => second s

variable {first second : Script ε σ} {s s' : σ}

theorem andThen_of_ok (ok : first s = (.ok (), s')) : first.andThen second s = second s' := by
  unfold andThen
  rw [ok]

/-- A sequence succeeds exactly if each of its parts does. -/
theorem andThen_ok_iff :
    (first.andThen second s).1 = .ok () ↔
      (first s).1 = .ok () ∧ (second (first s).2).1 = .ok () := by
  unfold andThen
  rcases first s with ⟨error | ⟨⟩, s'⟩ <;> simp

end Script

/-! ## Tables -/

inductive Cell where
  | null
  | integer (value : Int)
  | text (value : String)
  deriving DecidableEq, Repr

/-- `COALESCE(cell, default)`. -/
def Cell.coalesce (cell default : Cell) : Cell := if cell = .null then default else cell

@[simp]
theorem Cell.coalesce_null (default : Cell) : Cell.coalesce .null default = default := rfl

theorem Cell.coalesce_eq_self_iff {cell default : Cell} (present : default ≠ .null) :
    cell.coalesce default = cell ↔ cell ≠ .null := by
  unfold coalesce
  split
  · rename_i isNull
    simp [isNull, present]
  · simpa

structure SqlRow (κ : Type*) where
  rowid : Nat
  cell : κ → Cell

structure SqlTable (κ : Type*) where
  columns : List κ
  rows : List (SqlRow κ)
  distinct : (rows.map SqlRow.rowid).Nodup

namespace SqlTable

variable {κ : Type*}

def empty (columns : List κ) : SqlTable κ := ⟨columns, [], List.nodup_nil⟩

/-- New cells for every row, and other columns. -/
def remap (table : SqlTable κ) (columns : List κ) (change : SqlRow κ → κ → Cell) : SqlTable κ where
  columns := columns
  rows := table.rows.map fun row => ⟨row.rowid, change row⟩
  distinct := by
    rw [List.map_map]
    exact table.distinct

/-- `UPDATE`: new cells in the same columns. -/
def update (table : SqlTable κ) (change : SqlRow κ → κ → Cell) : SqlTable κ :=
  table.remap table.columns change

@[simp]
theorem remap_columns (table : SqlTable κ) (columns : List κ) (change : SqlRow κ → κ → Cell) :
    (table.remap columns change).columns = columns := rfl

/-- Cells that stay as they are leave the table as it is. -/
theorem update_eq_self {table : SqlTable κ} {change : SqlRow κ → κ → Cell}
    (same : ∀ row ∈ table.rows, change row = row.cell) : table.update change = table := by
  have rows : (table.update change).rows = table.rows := by
    refine (List.map_congr_left fun row member => ?_).trans (List.map_id table.rows)
    rw [same row member]
    rfl
  obtain ⟨columns, _, _⟩ := table
  unfold update remap at rows ⊢
  simp only [SqlTable.mk.injEq, true_and]
  exact rows

theorem remap_remap (table : SqlTable κ) (columns columns' : List κ)
    (change change' : SqlRow κ → κ → Cell) :
    (table.remap columns change).remap columns' change' =
      table.remap columns' fun row => change' ⟨row.rowid, change row⟩ := by
  unfold remap
  simp only [List.map_map, SqlTable.mk.injEq, true_and]
  rfl

variable [DecidableEq κ]

/-- `ALTER TABLE … ADD COLUMN`; nothing where it raises because the column is there. -/
def addColumn? (table : SqlTable κ) (column : κ) (default : Cell) : Option (SqlTable κ) :=
  if column ∈ table.columns then none
  else
    some (table.remap (table.columns ++ [column])
      fun row => Function.update row.cell column default)

/-- The columns of a list that are not among those that were present are added in turn. -/
def addMissing? (present : List κ) : List (κ × Cell) → SqlTable κ → Option (SqlTable κ)
  | [], table => some table
  | (column, default) :: rest, table =>
      if column ∈ present then addMissing? present rest table
      else (table.addColumn? column default).bind (addMissing? present rest)

/-- The columns that are missing, with their defaults. -/
def missing (present : List κ) (added : List (κ × Cell)) : List (κ × Cell) :=
  added.filter fun item => item.1 ∉ present

theorem lookup_missing (present : List κ) (added : List (κ × Cell)) (column : κ) :
    (missing present added).lookup column =
      if column ∈ present then none else added.lookup column := by
  induction added with
  | nil => simp [missing]
  | cons item rest ih =>
      obtain ⟨first, default⟩ := item
      unfold missing at ih ⊢
      rw [List.lookup_cons]
      by_cases known : first ∈ present
      · rw [List.filter_cons_of_neg (by simpa using known), ih]
        by_cases same : column = first
        · rw [same, if_pos known, if_pos known]
        · rw [beq_false_of_ne same]
      · rw [List.filter_cons_of_pos (by simpa using known), List.lookup_cons, ih]
        by_cases same : column = first
        · simp [same, known]
        · rw [beq_false_of_ne same]

/-- The table with a default in each of the missing columns. -/
def withMissing (present : List κ) (added : List (κ × Cell)) (table : SqlTable κ) : SqlTable κ :=
  table.remap (table.columns ++ (missing present added).map Prod.fst)
    fun row column => ((missing present added).lookup column).getD (row.cell column)

/-- Adding distinct columns that the table lacks does not fail. -/
theorem addMissing?_eq {present : List κ} {added : List (κ × Cell)}
    (nodup : (added.map Prod.fst).Nodup) {table : SqlTable κ}
    (fresh : ∀ column ∈ added.map Prod.fst, column ∈ table.columns → column ∈ present) :
    addMissing? present added table = some (table.withMissing present added) := by
  induction added generalizing table with
  | nil =>
      unfold withMissing missing
      simp only [List.filter_nil, List.map_nil, List.append_nil, List.lookup_nil, Option.getD_none]
      exact congrArg some (update_eq_self fun row _ => rfl).symm
  | cons item rest ih =>
      obtain ⟨column, default⟩ := item
      obtain ⟨apart, nodup⟩ := List.nodup_cons.mp nodup
      unfold addMissing?
      by_cases known : column ∈ present
      · have later : missing present ((column, default) :: rest) = missing present rest :=
          List.filter_cons_of_neg (by simp [known])
        rw [if_pos known, ih nodup fun c member => fresh c (List.mem_cons_of_mem _ member)]
        unfold withMissing
        rw [later]
      · have absent : column ∉ table.columns := fun member =>
          known (fresh column List.mem_cons_self member)
        have first : missing present ((column, default) :: rest) =
            (column, default) :: missing present rest :=
          List.filter_cons_of_pos (by simp [known])
        unfold addColumn?
        rw [if_neg known, if_neg absent, Option.bind_some, ih nodup]
        · unfold withMissing
          rw [remap_remap, first]
          simp only [remap_columns, List.map_cons, List.append_assoc, List.singleton_append]
          congr 2
          funext row c
          rw [List.lookup_cons]
          by_cases same : c = column
          · have none : (missing present rest).lookup column = none := by
              refine List.lookup_eq_none_iff.mpr fun item member => ?_
              have isColumn : item.1 ∈ rest.map Prod.fst :=
                List.mem_map_of_mem (List.mem_of_mem_filter member)
              exact bne_iff_ne.mpr fun equal => apart (equal ▸ isColumn)
            rw [same, none]
            simp
          · rw [beq_false_of_ne same, Function.update_of_ne same]
        · intro c member inside
          rcases List.mem_append.mp inside with old | new
          · exact fresh c (List.mem_cons_of_mem _ member) old
          · exact absurd (List.mem_singleton.mp new ▸ member) apart

end SqlTable

end YouMi.Library

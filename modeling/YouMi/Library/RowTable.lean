import Mathlib.Data.List.Nodup

/-!
# Tables with an automatic row id and one unique column

The rows of an SQL table declared with an `INTEGER PRIMARY KEY AUTOINCREMENT`
column and one `UNIQUE` column.  Row ids grow with every insertion and are never
given twice; an insertion that would repeat a value of the unique column fails.
Both constraints are fields of the table, so no operation can leave them.
-/

namespace YouMi.Library

/-- A row type with its row id and the value of its unique column. -/
class Keyed (ρ : Type*) (κ : outParam Type*) where
  rowid : ρ → Nat
  uniqueKey : ρ → κ
  /-- The row with the row id that the table assigns to it. -/
  assign : Nat → ρ → ρ
  rowid_assign : ∀ id row, rowid (assign id row) = id
  uniqueKey_assign : ∀ id row, uniqueKey (assign id row) = uniqueKey row

attribute [simp] Keyed.rowid_assign Keyed.uniqueKey_assign

/-- Rows in the order of their insertion, and the largest row id given so far. -/
structure RowTable (ρ : Type*) {κ : Type*} [Keyed ρ κ] where
  rows : List ρ
  seq : Nat
  rowid_lt : rows.Pairwise fun first second => Keyed.rowid first < Keyed.rowid second
  rowid_le_seq : ∀ row ∈ rows, Keyed.rowid row ≤ seq
  unique : rows.Pairwise fun first second => Keyed.uniqueKey first ≠ Keyed.uniqueKey second

namespace RowTable

variable {ρ κ : Type*} [Keyed ρ κ]

def empty : RowTable ρ := ⟨[], 0, .nil, by simp, .nil⟩

@[simp]
theorem empty_rows : (empty : RowTable ρ).rows = [] := rfl

theorem eq_of_rowid {table : RowTable ρ} {first second : ρ}
    (hfirst : first ∈ table.rows) (hsecond : second ∈ table.rows)
    (same : Keyed.rowid first = Keyed.rowid second) : first = second := by
  have distinct : (table.rows.map Keyed.rowid).Nodup :=
    List.pairwise_map.mpr (table.rowid_lt.imp fun lt => Nat.ne_of_lt lt)
  exact List.inj_on_of_nodup_map distinct hfirst hsecond same

theorem eq_of_uniqueKey {table : RowTable ρ} {first second : ρ}
    (hfirst : first ∈ table.rows) (hsecond : second ∈ table.rows)
    (same : Keyed.uniqueKey first = Keyed.uniqueKey second) : first = second :=
  List.inj_on_of_nodup_map (List.pairwise_map.mpr table.unique) hfirst hsecond same

theorem nodup (table : RowTable ρ) : table.rows.Nodup :=
  table.rowid_lt.imp (fun {_ _} lt same => by rw [same] at lt; exact Nat.lt_irrefl _ lt)

section Insert

variable [DecidableEq κ]

/-- `INSERT`: the row gets the next row id; a repeated unique value is a constraint violation. -/
def insert? (table : RowTable ρ) (row : ρ) : Option (RowTable ρ) :=
  if taken : ∃ old ∈ table.rows, Keyed.uniqueKey old = Keyed.uniqueKey row then none
  else
    some {
      rows := table.rows ++ [Keyed.assign (table.seq + 1) row]
      seq := table.seq + 1
      rowid_lt := by
        refine List.pairwise_append.mpr ⟨table.rowid_lt, List.pairwise_singleton _ _, ?_⟩
        intro old hold new hnew
        have bound := table.rowid_le_seq old hold
        rw [List.mem_singleton.mp hnew, Keyed.rowid_assign]
        omega
      rowid_le_seq := by
        intro old hold
        rcases List.mem_append.mp hold with hold | hold
        · exact Nat.le_succ_of_le (table.rowid_le_seq old hold)
        · exact Nat.le_of_eq (by rw [List.mem_singleton.mp hold, Keyed.rowid_assign])
      unique := by
        refine List.pairwise_append.mpr ⟨table.unique, List.pairwise_singleton _ _, ?_⟩
        intro old hold new hnew same
        rw [List.mem_singleton.mp hnew, Keyed.uniqueKey_assign] at same
        exact taken ⟨old, hold, same⟩ }

theorem insert?_eq_none_iff {table : RowTable ρ} {row : ρ} :
    table.insert? row = none ↔ ∃ old ∈ table.rows, Keyed.uniqueKey old = Keyed.uniqueKey row := by
  unfold insert?
  split <;> simp_all

theorem insert?_rows {table next : RowTable ρ} {row : ρ} (inserted : table.insert? row = some next) :
    next.rows = table.rows ++ [Keyed.assign (table.seq + 1) row] := by
  unfold insert? at inserted
  split at inserted
  · cases inserted
  · cases inserted
    rfl

theorem insert?_seq {table next : RowTable ρ} {row : ρ} (inserted : table.insert? row = some next) :
    next.seq = table.seq + 1 := by
  unfold insert? at inserted
  split at inserted
  · cases inserted
  · cases inserted
    rfl

theorem insert?_fresh {table next : RowTable ρ} {row : ρ} (inserted : table.insert? row = some next) :
    ∀ old ∈ table.rows, Keyed.uniqueKey old ≠ Keyed.uniqueKey row := by
  intro old hold same
  have full := insert?_eq_none_iff.mpr ⟨old, hold, same⟩
  rw [inserted] at full
  cases full

end Insert

/-- `UPDATE`: a change of every row that leaves the row id and the unique column alone. -/
def update (table : RowTable ρ) (change : ρ → ρ)
    (rowid_change : ∀ row, Keyed.rowid (change row) = Keyed.rowid row)
    (uniqueKey_change : ∀ row, Keyed.uniqueKey (change row) = Keyed.uniqueKey row) :
    RowTable ρ where
  rows := table.rows.map change
  seq := table.seq
  rowid_lt := List.pairwise_map.mpr (by simpa only [rowid_change] using table.rowid_lt)
  rowid_le_seq := by
    intro row hrow
    obtain ⟨old, hold, rfl⟩ := List.mem_map.mp hrow
    rw [rowid_change]
    exact table.rowid_le_seq old hold
  unique := List.pairwise_map.mpr (by simpa only [uniqueKey_change] using table.unique)

@[simp]
theorem update_rows (table : RowTable ρ) (change : ρ → ρ)
    (rowid_change : ∀ row, Keyed.rowid (change row) = Keyed.rowid row)
    (uniqueKey_change : ∀ row, Keyed.uniqueKey (change row) = Keyed.uniqueKey row) :
    (table.update change rowid_change uniqueKey_change).rows = table.rows.map change := rfl

/-- `DELETE`: only the rows that the condition does not select stay; row ids are not given again. -/
def delete (table : RowTable ρ) (selected : ρ → Bool) : RowTable ρ where
  rows := table.rows.filter fun row => !selected row
  seq := table.seq
  rowid_lt := table.rowid_lt.filter _
  rowid_le_seq := fun row hrow => table.rowid_le_seq row ((List.mem_filter.mp hrow).1)
  unique := table.unique.filter _

theorem delete_eq_self {table : RowTable ρ} {selected : ρ → Bool}
    (nothing : ∀ row ∈ table.rows, selected row = false) : table.delete selected = table := by
  have rows : (table.rows.filter fun row => !selected row) = table.rows := by
    refine List.filter_eq_self.mpr fun row member => ?_
    rw [nothing row member]
    rfl
  obtain ⟨_, _, _, _, _⟩ := table
  simp only [delete, rows]

end RowTable

end YouMi.Library

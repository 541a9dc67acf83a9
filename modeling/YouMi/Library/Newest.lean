import Mathlib.Data.List.MinMax
import Mathlib.Data.List.Nodup
import Mathlib.Data.List.Sort

/-!
# The newest and the oldest row

`ORDER BY key DESC LIMIT 1` and `ORDER BY key ASC LIMIT 1` over a list of rows.
Both are the argument of an extreme of the key; where the key tells the rows
apart the answer is unique, and then it only depends on which rows there are.
-/

namespace YouMi.Library

variable {α κ : Type*} [LinearOrder κ]

/-- `SELECT … ORDER BY key DESC LIMIT 1`. -/
def newest (key : α → κ) (rows : List α) : Option α := rows.argmax key

/-- `SELECT … ORDER BY key ASC LIMIT 1`. -/
def oldest (key : α → κ) (rows : List α) : Option α := rows.argmin key

variable {key : α → κ} {rows : List α} {row : α}

@[simp]
theorem newest_eq_none_iff : newest key rows = none ↔ rows = [] := List.argmax_eq_none

theorem newest_isSome_iff : (newest key rows).isSome ↔ ∃ row, row ∈ rows := by
  rw [Option.isSome_iff_ne_none, ne_eq, newest_eq_none_iff]
  exact ⟨List.exists_mem_of_ne_nil rows, fun ⟨_, member⟩ => List.ne_nil_of_mem member⟩

theorem exists_newest (member : row ∈ rows) : ∃ top, newest key rows = some top :=
  Option.isSome_iff_exists.mp (newest_isSome_iff.mpr ⟨row, member⟩)

theorem newest_mem (top : newest key rows = some row) : row ∈ rows := List.argmax_mem top

theorem le_newest (top : newest key rows = some row) {other : α} (member : other ∈ rows) :
    key other ≤ key row :=
  List.le_of_mem_argmax member top

theorem oldest_mem (bottom : oldest key rows = some row) : row ∈ rows := List.argmin_mem bottom

theorem oldest_le (bottom : oldest key rows = some row) {other : α} (member : other ∈ rows) :
    key row ≤ key other :=
  List.le_of_mem_argmin member bottom

theorem oldest_eq_none_iff : oldest key rows = none ↔ rows = [] := List.argmin_eq_none

theorem exists_oldest (member : row ∈ rows) : ∃ bottom, oldest key rows = some bottom := by
  cases h : oldest key rows with
  | none => exact absurd (oldest_eq_none_iff.mp h) (List.ne_nil_of_mem member)
  | some bottom => exact ⟨bottom, rfl⟩

/-- The key tells the rows of the list apart. -/
def KeyInjective (key : α → κ) (rows : List α) : Prop :=
  ∀ first ∈ rows, ∀ second ∈ rows, key first = key second → first = second

omit [LinearOrder κ] in
theorem KeyInjective.subset {more : List α} (inj : KeyInjective key more)
    (sub : ∀ row ∈ rows, row ∈ more) : KeyInjective key rows :=
  fun first hfirst second hsecond => inj first (sub first hfirst) second (sub second hsecond)

/-- Where the key tells the rows apart, the newest row is the one no row is above. -/
theorem newest_eq_some_iff (inj : KeyInjective key rows) :
    newest key rows = some row ↔ row ∈ rows ∧ ∀ other ∈ rows, key other ≤ key row := by
  constructor
  · intro top
    exact ⟨newest_mem top, fun other => le_newest top⟩
  · rintro ⟨member, above⟩
    obtain ⟨top, htop⟩ : ∃ top, newest key rows = some top := exists_newest member
    have same := le_antisymm (above top (newest_mem htop)) (le_newest htop member)
    rw [htop, inj top (newest_mem htop) row member same]

/-- Where the key tells the rows apart, the oldest row is the one no row is below. -/
theorem oldest_eq_some_iff (inj : KeyInjective key rows) :
    oldest key rows = some row ↔ row ∈ rows ∧ ∀ other ∈ rows, key row ≤ key other := by
  constructor
  · intro bottom
    exact ⟨oldest_mem bottom, fun other => oldest_le bottom⟩
  · rintro ⟨member, below⟩
    obtain ⟨bottom, hbottom⟩ : ∃ bottom, oldest key rows = some bottom := exists_oldest member
    have same := le_antisymm (oldest_le hbottom member) (below bottom (oldest_mem hbottom))
    rw [hbottom, inj bottom (oldest_mem hbottom) row member same]

/-- A row put last is the newest unless the newest so far is above it. -/
theorem newest_append_singleton (rows : List α) (row : α) :
    newest key (rows ++ [row]) =
      match newest key rows with
      | none => some row
      | some top => if key top < key row then some row else some top := by
  unfold newest
  rw [List.argmax_concat]
  cases rows.argmax key <;> rfl

/-- A row put last is the oldest only if it is below the oldest so far. -/
theorem oldest_append_singleton (rows : List α) (row : α) :
    oldest key (rows ++ [row]) =
      match oldest key rows with
      | none => some row
      | some bottom => if key row < key bottom then some row else some bottom := by
  unfold oldest
  rw [List.argmin_concat]
  cases rows.argmin key <;> rfl

/-- A change of the rows that keeps their keys changes the newest row alike. -/
theorem newest_map {change : α → α} (same_key : ∀ row, key (change row) = key row)
    (rows : List α) : newest key (rows.map change) = (newest key rows).map change := by
  unfold newest
  induction rows using List.reverseRecOn with
  | nil => rfl
  | append_singleton rest last ih =>
      rw [List.map_append, List.map_singleton, List.argmax_concat, List.argmax_concat, ih]
      cases rest.argmax key with
      | none => rfl
      | some best =>
          simp only [Option.map_some, same_key]
          split <;> rfl

theorem oldest_map {change : α → α} (same_key : ∀ row, key (change row) = key row)
    (rows : List α) : oldest key (rows.map change) = (oldest key rows).map change := by
  unfold oldest
  induction rows using List.reverseRecOn with
  | nil => rfl
  | append_singleton rest last ih =>
      rw [List.map_append, List.map_singleton, List.argmin_concat, List.argmin_concat, ih]
      cases rest.argmin key with
      | none => rfl
      | some best =>
          simp only [Option.map_some, same_key]
          split <;> rfl

/-! ## All rows in order -/

/-- `SELECT … ORDER BY key ASC`. -/
def oldestFirst (key : α → κ) (rows : List α) : List α :=
  rows.insertionSort fun first second => key first ≤ key second

/-- `SELECT … ORDER BY key DESC`. -/
def newestFirst (key : α → κ) (rows : List α) : List α :=
  rows.insertionSort fun first second => key second ≤ key first

theorem oldestFirst_perm : (oldestFirst key rows).Perm rows := List.perm_insertionSort _ _

theorem oldestFirst_pairwise :
    (oldestFirst key rows).Pairwise fun first second => key first ≤ key second :=
  have : Std.Total fun first second : α => key first ≤ key second := ⟨fun _ _ => le_total _ _⟩
  have : IsTrans α fun first second => key first ≤ key second := ⟨fun _ _ _ => le_trans⟩
  List.pairwise_insertionSort _ _

theorem newestFirst_pairwise :
    (newestFirst key rows).Pairwise fun first second => key second ≤ key first :=
  have : Std.Total fun first second : α => key second ≤ key first := ⟨fun _ _ => le_total _ _⟩
  have : IsTrans α fun first second => key second ≤ key first :=
    ⟨fun _ _ _ first second => le_trans second first⟩
  List.pairwise_insertionSort _ _

/-- Rows that the key tells apart have one order. -/
theorem eq_oldestFirst (inj : KeyInjective key rows) {sorted : List α} (perm : sorted.Perm rows)
    (order : sorted.Pairwise fun first second => key first ≤ key second) :
    sorted = oldestFirst key rows := by
  refine List.Perm.eq_of_pairwise (fun first second hfirst hsecond le ge => ?_) order
    oldestFirst_pairwise (perm.trans oldestFirst_perm.symm)
  exact inj first (perm.mem_iff.mp hfirst) second (oldestFirst_perm.mem_iff.mp hsecond)
    (le_antisymm le ge)

/-- The two orders are each other's reverse where the key tells the rows apart. -/
theorem newestFirst_eq_reverse (inj : KeyInjective key rows) :
    newestFirst key rows = (oldestFirst key rows).reverse := by
  rw [← eq_oldestFirst inj ((List.reverse_perm _).trans (List.perm_insertionSort _ _))
    (List.pairwise_reverse.mpr newestFirst_pairwise), List.reverse_reverse]
  rfl

theorem filter_oldestFirst (inj : KeyInjective key rows) (keep : α → Bool) :
    (oldestFirst key rows).filter keep = oldestFirst key (rows.filter keep) :=
  eq_oldestFirst (inj.subset fun _ member => (List.mem_filter.mp member).1)
    (oldestFirst_perm.filter keep) (oldestFirst_pairwise.filter keep)

theorem head?_oldestFirst (inj : KeyInjective key rows) :
    (oldestFirst key rows).head? = oldest key rows := by
  cases sorted : oldestFirst key rows with
  | nil =>
      have none : rows = [] := List.perm_nil.mp (sorted ▸ oldestFirst_perm).symm
      rw [none]
      rfl
  | cons first later =>
      have mem {row : α} : row ∈ first :: later ↔ row ∈ rows := sorted ▸ oldestFirst_perm.mem_iff
      have order : (first :: later).Pairwise fun first second => key first ≤ key second :=
        sorted ▸ oldestFirst_pairwise
      obtain ⟨bottom, isOldest⟩ : ∃ bottom, oldest key rows = some bottom :=
        exists_oldest (mem.mp List.mem_cons_self)
      have below : key first ≤ key bottom := by
        rcases List.mem_cons.mp (mem.mpr (oldest_mem isOldest)) with rfl | later
        · exact le_rfl
        · exact List.rel_of_pairwise_cons order later
      have same := inj first (mem.mp List.mem_cons_self) bottom (oldest_mem isOldest)
        (le_antisymm below (oldest_le isOldest (mem.mp List.mem_cons_self)))
      rw [isOldest, ← same]
      rfl

/-- The last row in order is the newest. -/
theorem getLast?_oldestFirst (inj : KeyInjective key rows) :
    (oldestFirst key rows).getLast? = newest key rows := by
  cases last : (oldestFirst key rows).getLast? with
  | none =>
      have none : rows = [] :=
        List.perm_nil.mp (List.getLast?_eq_none_iff.mp last ▸ oldestFirst_perm).symm
      rw [none]
      rfl
  | some top =>
      symm
      rw [newest_eq_some_iff inj]
      have member := List.mem_of_getLast? last
      refine ⟨oldestFirst_perm.mem_iff.mp member, fun other here => ?_⟩
      obtain ⟨before, parts⟩ := List.getLast?_eq_some_iff.mp last
      have order : (before ++ [top]).Pairwise fun first second => key first ≤ key second :=
        parts ▸ oldestFirst_pairwise
      rcases List.mem_append.mp (parts ▸ oldestFirst_perm.mem_iff.mpr here) with old | same
      · exact (List.pairwise_append.mp order).2.2 other old top (List.mem_singleton_self _)
      · rw [List.mem_singleton.mp same]

end YouMi.Library

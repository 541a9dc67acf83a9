import YouMi.Mcp.ToolStore.WellFormed

/-!
# The current version of a tool

The store finds the current version of a tool in four ways: as the row of `main`
created last, as the head of the tool's lineage, as the listed row, and as the
row with the head flag.  They agree exactly if the row created last has the flag
and no other row stands in its lineage.
-/

namespace YouMi.Mcp.ToolStore

open YouMi.Core YouMi.Library

variable {V : Type}

/-- All that asks for the current version of the tool is answered with this row. -/
structure IsCurrent (rows : List ToolRow) (toolName : String) (row : ToolRow) : Prop where
  getTool : getTool rows toolName "" = some row
  /-- `get_head_version`, from which a promotion takes the definition. -/
  headVersion : lineageHead rows toolName = some row
  listed : (listTools rows none none).filter (fun listed => listed.toolName = toolName) = [row]
  /-- What `create_version` puts its row above. -/
  created : newestOn rows toolName "main" = some row
  /-- What a promotion puts its row above. -/
  promoted : flaggedHead rows toolName = some row

/-- Every tool with rows on `main` has a current version. -/
def CurrentAgrees (rows : List ToolRow) : Prop :=
  ∀ toolName, HasBranch rows toolName "main" → ∃ row, IsCurrent rows toolName row

/-- The newest row of `main` has the head flag. -/
def NewestIsHead (rows : List ToolRow) : Prop :=
  ∀ toolName top, newestOn rows toolName "main" = some top → top.isHead = true

/--
A row of `main` in the lineage of a tool's name is not newer than the newest row
of the tool, which then is in that lineage too.
-/
def LineageFits (rows : List ToolRow) : Prop :=
  ∀ toolName top, newestOn rows toolName "main" = some top →
    ∀ row ∈ rows, row.branch = "main" → row.lineageId = toolName →
      top.lineageId = toolName ∧ row.age ≤ top.age

/-! ## When the answers agree -/

theorem lineageHead_eq_newestOn_iff {table : ToolTable} {toolName : String} {top : ToolRow}
    (isTop : newestOn table.rows toolName "main" = some top) :
    lineageHead table.rows toolName = some top ↔
      ∀ row ∈ table.rows, row.branch = "main" → row.lineageId = toolName →
        top.lineageId = toolName ∧ row.age ≤ top.age := by
  have inj : KeyInjective ToolRow.age
      (table.rows.filter fun row => row.lineageId = toolName ∧ row.branch = "main") :=
    (age_injective table).subset fun row member => (List.mem_filter.mp member).1
  have found (row : ToolRow) : newest ToolRow.age
      (table.rows.filter fun row => row.lineageId = toolName ∧ row.branch = "main") = some row ↔
        (row ∈ table.rows ∧ row.lineageId = toolName ∧ row.branch = "main") ∧
          ∀ other ∈ table.rows, other.lineageId = toolName → other.branch = "main" →
            other.age ≤ row.age := by
    rw [newest_eq_some_iff inj]
    simp [List.mem_filter]
  unfold lineageHead
  rw [isTop]
  constructor
  · intro head row member main lineage
    rcases Option.or_eq_some_iff.mp head with here | ⟨absent, _⟩
    · obtain ⟨⟨_, topLineage, _⟩, above⟩ := (found top).mp here
      exact ⟨topLineage, above row member lineage main⟩
    · rw [newest_eq_none_iff, List.filter_eq_nil_iff] at absent
      have outside := absent row member
      rw [decide_eq_true_eq] at outside
      exact absurd ⟨lineage, main⟩ outside
  · intro fits
    rw [Option.or_eq_some_iff]
    cases here : newest ToolRow.age
        (table.rows.filter fun row => row.lineageId = toolName ∧ row.branch = "main") with
    | none => exact .inr ⟨rfl, rfl⟩
    | some row =>
        obtain ⟨⟨member, lineage, main⟩, above⟩ := (found row).mp here
        obtain ⟨topMember, _, topMain⟩ := newestOn_mem isTop
        obtain ⟨topLineage, below⟩ := fits row member main lineage
        have same := age_injective table row member top topMember
          (le_antisymm below (above top topMember topLineage topMain))
        exact .inl (by rw [same])

/-- The rows listed for a tool are the heads of its `main`. -/
theorem listTools_filter {table : ToolTable} (wellFormed : WellFormed table.rows)
    {toolName : String} {head : ToolRow} (member : head ∈ table.rows)
    (on : head.On toolName "main") (isHead : head.isHead = true) :
    (listTools table.rows none none).filter (fun listed => listed.toolName = toolName) =
      [head] := by
  refine List.perm_singleton.mp (((List.perm_insertionSort _ _).filter _).trans ?_)
  refine (List.perm_ext_iff_of_nodup ((table.nodup.filter _).filter _)
    (List.nodup_singleton head)).mpr fun row => ?_
  simp only [List.mem_filter, List.mem_singleton, decide_eq_true_eq]
  constructor
  · rintro ⟨⟨here, main, flag, _⟩, name⟩
    exact wellFormed.heads row here head member flag isHead
      ⟨on.1.trans name.symm, on.2.trans main.symm⟩
  · rintro rfl
    exact ⟨⟨member, on.2, isHead, by simp, by simp⟩, on.1⟩

theorem currentAgrees_iff {table : ToolTable} (wellFormed : WellFormed table.rows) :
    CurrentAgrees table.rows ↔ NewestIsHead table.rows ∧ LineageFits table.rows := by
  constructor
  · intro agrees
    have current (toolName : String) (top : ToolRow)
        (isTop : newestOn table.rows toolName "main" = some top) :
        IsCurrent table.rows toolName top := by
      obtain ⟨member, on⟩ := newestOn_mem isTop
      obtain ⟨row, isCurrent⟩ := agrees toolName ⟨top, member, on⟩
      obtain rfl := Option.some.inj (isTop.symm.trans isCurrent.created)
      exact isCurrent
    refine ⟨fun toolName top isTop => ?_, fun toolName top isTop => ?_⟩
    · exact (flaggedHead_mem (current toolName top isTop).promoted).2.2
    · exact (lineageHead_eq_newestOn_iff isTop).mp (current toolName top isTop).headVersion
  · rintro ⟨isHead, fits⟩ toolName ⟨row, member, on⟩
    obtain ⟨top, isTop⟩ := exists_newestOn member on
    obtain ⟨topMember, topOn⟩ := newestOn_mem isTop
    have flag := isHead toolName top isTop
    exact ⟨top, {
      getTool := isTop
      headVersion := (lineageHead_eq_newestOn_iff isTop).mpr (fits toolName top isTop)
      listed := listTools_filter wellFormed topMember topOn flag
      created := isTop
      promoted := wellFormed.flaggedHead_eq_some_iff.mpr ⟨topMember, topOn, flag⟩ }⟩

theorem NewestIsHead.map {rows : List ToolRow} {change : ToolRow → ToolRow}
    (isHead : NewestIsHead rows) (relabels : Relabels change) : NewestIsHead (rows.map change) := by
  intro toolName top isTop
  rw [relabels.newestOn] at isTop
  obtain ⟨old, isOld, rfl⟩ := Option.map_eq_some_iff.mp isTop
  rw [relabels.isHead]
  exact isHead toolName old isOld

theorem LineageFits.map {rows : List ToolRow} {change : ToolRow → ToolRow}
    (fits : LineageFits rows) (relabels : Relabels change) : LineageFits (rows.map change) := by
  intro toolName top isTop row member main lineage
  rw [relabels.newestOn] at isTop
  obtain ⟨old, isOld, rfl⟩ := Option.map_eq_some_iff.mp isTop
  obtain ⟨before, hbefore, rfl⟩ := List.mem_map.mp member
  rw [relabels.branch] at main
  rw [relabels.lineageId] at lineage
  rw [relabels.lineageId, relabels.age, relabels.age]
  exact fits toolName old isOld before hbefore main lineage

/-! ## Inserting a row on main -/

/--
A row of `main` becomes the head exactly if it comes last; a new head is in the
lineage of its tool's name if any row is; and the row is in the lineage of no
other name, or older than the newest row of the tool so named.
-/
structure FitsMain (rows : List ToolRow) (row : ToolRow) : Prop where
  order : ∀ top, newestOn rows row.toolName "main" = some top →
    (row.isHead = true ↔ top.createdAt ≤ row.createdAt)
  own : row.isHead = true → ∀ other ∈ rows, other.branch = "main" →
    other.lineageId = row.toolName →
      row.lineageId = row.toolName ∧ other.createdAt ≤ row.createdAt
  foreign : ∀ top, newestOn rows row.lineageId "main" = some top →
    (row.isHead = true → row.lineageId ≠ row.toolName) →
      top.lineageId = row.lineageId ∧ row.createdAt < top.createdAt

section Insert

variable {rows : List ToolRow} {row : ToolRow} (fresh : Fresh rows row)

include fresh

theorem newestIsHead_insert_iff (isHead : NewestIsHead rows) (main : row.branch = "main")
    (first : newestOn rows row.toolName "main" = none → row.isHead = true) :
    NewestIsHead (rows.map (makeRoom row) ++ [row]) ↔
      ∀ top, newestOn rows row.toolName "main" = some top →
        (row.isHead = true ↔ top.createdAt ≤ row.createdAt) := by
  have newest := newestOn_insert_self fresh
  rw [main] at newest
  constructor
  · intro after top isTop
    rw [isTop] at newest
    dsimp only at newest
    split at newest
    · rename_i later
      exact iff_of_true (after row.toolName row newest) later
    · rename_i earlier
      have flag := makeRoom_isHead.mp (after row.toolName _ newest)
      refine iff_of_false (fun head => ?_) earlier
      exact flag.2 head (by rw [main]; exact (newestOn_mem isTop).2)
  · intro order toolName top isTop
    by_cases here : row.On toolName "main"
    · obtain ⟨rfl, _⟩ := here
      rw [newest] at isTop
      cases was : newestOn rows row.toolName "main" with
      | none =>
          rw [was] at isTop
          obtain rfl := Option.some.inj isTop
          exact first was
      | some before =>
          rw [was] at isTop
          dsimp only at isTop
          split at isTop
          · rename_i later
            obtain rfl := Option.some.inj isTop
            exact (order before was).mpr later
          · rename_i earlier
            obtain rfl := Option.some.inj isTop
            refine makeRoom_isHead.mpr ⟨isHead _ before was, fun head => ?_⟩
            exact absurd ((order before was).mp head) earlier
    · rw [newestOn_insert_other here] at isTop
      obtain ⟨before, was, rfl⟩ := Option.map_eq_some_iff.mp isTop
      refine makeRoom_isHead.mpr ⟨isHead toolName before was, fun _ on => here ?_⟩
      obtain ⟨_, onName, onMain⟩ := newestOn_mem was
      exact ⟨on.1.symm.trans onName, on.2.symm.trans onMain⟩

/-- The newest row after the insertion: the new row if it is the head. -/
theorem newestOn_insert_head (main : row.branch = "main")
    (order : ∀ top, newestOn rows row.toolName "main" = some top →
      (row.isHead = true ↔ top.createdAt ≤ row.createdAt))
    (head : row.isHead = true) :
    newestOn (rows.map (makeRoom row) ++ [row]) row.toolName "main" = some row := by
  have newest := newestOn_insert_self fresh
  rw [main] at newest
  rw [newest]
  cases was : newestOn rows row.toolName "main" with
  | none => rfl
  | some before => exact if_pos ((order before was).mp head)

theorem newestOn_insert_below {toolName : String} {top : ToolRow} (main : row.branch = "main")
    (order : ∀ top, newestOn rows row.toolName "main" = some top →
      (row.isHead = true ↔ top.createdAt ≤ row.createdAt))
    (below : toolName = row.toolName → row.isHead = false)
    (isTop : newestOn rows toolName "main" = some top) :
    newestOn (rows.map (makeRoom row) ++ [row]) toolName "main" = some (makeRoom row top) := by
  by_cases here : row.On toolName "main"
  · obtain ⟨rfl, _⟩ := here
    have newest := newestOn_insert_self fresh
    rw [main] at newest
    rw [newest, isTop]
    refine if_neg fun later => ?_
    rw [(order top isTop).mpr later] at below
    cases below rfl
  · rw [newestOn_insert_other here, isTop]
    rfl

omit fresh in
/-- A tool whose newest row is not the new one had a newest row before. -/
theorem exists_newestOn_of_insert {toolName : String} {top : ToolRow}
    (first : newestOn rows row.toolName "main" = none → row.isHead = true)
    (below : toolName = row.toolName → row.isHead = false)
    (isTop : newestOn (rows.map (makeRoom row) ++ [row]) toolName "main" = some top) :
    ∃ before, newestOn rows toolName "main" = some before := by
  by_cases here : row.On toolName "main"
  · obtain ⟨rfl, _⟩ := here
    refine Option.ne_none_iff_exists'.mp fun absent => ?_
    rw [first absent] at below
    cases below rfl
  · rw [newestOn_insert_other here] at isTop
    obtain ⟨before, was, _⟩ := Option.map_eq_some_iff.mp isTop
    exact ⟨before, was⟩

/-- After the insertion the lineages still hold the rows of their newest row: the row fits. -/
theorem fitsMain_of_insert (main : row.branch = "main")
    (order : ∀ top, newestOn rows row.toolName "main" = some top →
      (row.isHead = true ↔ top.createdAt ≤ row.createdAt))
    (after : LineageFits (rows.map (makeRoom row) ++ [row])) : FitsMain rows row := by
  have keeps := makeRoom_keepsPlace row
  refine ⟨order, fun head other member onMain lineage => ?_, fun top isTop other => ?_⟩
  · have newest := newestOn_insert_head fresh main order head
    obtain ⟨rowLineage, below⟩ := after row.toolName row newest (makeRoom row other)
      (List.mem_append_left _ (List.mem_map_of_mem member))
      (by rw [keeps.branch]; exact onMain) (by rw [makeRoom_lineageId]; exact lineage)
    rw [keeps.age, fresh.age_le_iff member] at below
    exact ⟨rowLineage, below⟩
  · have below : row.lineageId = row.toolName → row.isHead = false := by
      intro same
      by_contra head
      exact other (by simpa using head) same
    have newest := newestOn_insert_below fresh main order below isTop
    have last : row ∈ rows.map (makeRoom row) ++ [row] := by simp
    obtain ⟨topLineage, older⟩ := after row.lineageId _ newest row last main rfl
    rw [makeRoom_lineageId] at topLineage
    rw [keeps.age, ← not_lt, fresh.age_lt_iff (newestOn_mem isTop).1, not_le] at older
    exact ⟨topLineage, older⟩

/-- A row that fits leaves every lineage with the rows of its newest row. -/
theorem lineageFits_insert (fits : LineageFits rows) (main : row.branch = "main")
    (first : newestOn rows row.toolName "main" = none → row.isHead = true)
    (fitsMain : FitsMain rows row) : LineageFits (rows.map (makeRoom row) ++ [row]) := by
  have keeps := makeRoom_keepsPlace row
  intro toolName top isTop other member onMain lineage
  by_cases becomes : toolName = row.toolName ∧ row.isHead = true
  · -- The new row is the newest of its tool.
    obtain ⟨rfl, head⟩ := becomes
    rw [newestOn_insert_head fresh main fitsMain.order head] at isTop
    obtain rfl := Option.some.inj isTop
    rcases List.mem_append.mp member with inside | new
    · obtain ⟨before, hbefore, rfl⟩ := List.mem_map.mp inside
      rw [keeps.branch] at onMain
      rw [makeRoom_lineageId] at lineage
      obtain ⟨rowLineage, below⟩ := fitsMain.own head before hbefore onMain lineage
      rw [keeps.age, fresh.age_le_iff hbefore]
      exact ⟨rowLineage, below⟩
    · rw [List.mem_singleton.mp new] at lineage ⊢
      exact ⟨lineage, le_rfl⟩
  · -- The newest row of the tool is the one from before.
    have below : toolName = row.toolName → row.isHead = false := by
      intro same
      by_contra head
      exact becomes ⟨same, by simpa using head⟩
    obtain ⟨before, was⟩ := exists_newestOn_of_insert first below isTop
    rw [newestOn_insert_below fresh main fitsMain.order below was] at isTop
    obtain rfl := Option.some.inj isTop
    rw [makeRoom_lineageId, keeps.age]
    rcases List.mem_append.mp member with inside | new
    · obtain ⟨old, hold, rfl⟩ := List.mem_map.mp inside
      rw [keeps.branch] at onMain
      rw [makeRoom_lineageId] at lineage
      rw [keeps.age]
      exact fits toolName before was old hold onMain lineage
    · rw [List.mem_singleton.mp new] at lineage ⊢
      subst lineage
      obtain ⟨topLineage, older⟩ := fitsMain.foreign before was fun head same => by
        rw [below same] at head
        cases head
      refine ⟨topLineage, ?_⟩
      rw [← not_lt, fresh.age_lt_iff (newestOn_mem was).1, not_le]
      exact older

theorem lineageFits_insert_iff (fits : LineageFits rows) (main : row.branch = "main")
    (first : newestOn rows row.toolName "main" = none → row.isHead = true)
    (order : ∀ top, newestOn rows row.toolName "main" = some top →
      (row.isHead = true ↔ top.createdAt ≤ row.createdAt)) :
    LineageFits (rows.map (makeRoom row) ++ [row]) ↔ FitsMain rows row :=
  ⟨fitsMain_of_insert fresh main order, lineageFits_insert fresh fits main first⟩

end Insert

/-! ## Upserting a row again -/

/--
A row of `main` can be upserted again with the lineage: it has the head flag or
does not take it, and it fits into the lineage as a new row would.
-/
structure FitsAgain (rows : List ToolRow) (old : ToolRow) (lineageId : String) (takes : Bool) :
    Prop where
  flag : old.isHead = true ∨ takes = false
  own : old.isHead = true → ∀ other ∈ rows, other ≠ old → other.branch = "main" →
    other.lineageId = old.toolName → lineageId = old.toolName
  foreign : ∀ top, newestOn rows lineageId "main" = some top → top ≠ old →
    top.lineageId = lineageId ∧ old.age ≤ top.age

theorem reupsert_lineageId_self {new old : ToolRow} (same : old.toolId = new.toolId) :
    (reupsert new old).lineageId = new.lineageId := by
  rw [reupsert, if_pos same, overwrite, if_pos same]

section Reupsert

variable {table : ToolTable} {new old : ToolRow} (hold : old ∈ table.rows)
  (same : old.toolId = new.toolId) (on : old.On new.toolName "main") (main : new.branch = "main")

include hold same

theorem toolId_eq_iff {row : ToolRow} (member : row ∈ table.rows) :
    row.toolId = new.toolId ↔ row = old :=
  ⟨fun here => RowTable.eq_of_uniqueKey member hold (here.trans same.symm),
    fun here => here ▸ same⟩

theorem reupsert_lineageId_other {row : ToolRow} (member : row ∈ table.rows) (other : row ≠ old) :
    (reupsert new row).lineageId = row.lineageId := by
  rw [reupsert, if_neg (mt (toolId_eq_iff hold same member).mp other), makeRoom_lineageId]

include on main

theorem newestIsHead_reupsert_iff (wellFormed : WellFormed table.rows)
    (isHead : NewestIsHead table.rows) :
    NewestIsHead (table.rows.map (reupsert new)) ↔ old.isHead = true ∨ new.isHead = false := by
  have keeps := reupsert_keepsPlace new
  -- The newest row keeps the flag if it is the row itself or the flag is not taken.
  have flag (toolName : String) (top : ToolRow)
      (isTop : newestOn table.rows toolName "main" = some top) :
      (reupsert new top).isHead = true ↔
        top = old ∨ (new.isHead = true → toolName ≠ new.toolName) := by
    obtain ⟨member, topOn⟩ := newestOn_mem isTop
    unfold reupsert
    split
    · rename_i here
      rw [overwrite_isHead]
      exact iff_of_true (isHead toolName top isTop) (.inl ((toolId_eq_iff hold same member).mp here))
    · rename_i other
      rw [makeRoom_isHead, or_iff_right (mt (toolId_eq_iff hold same member).mpr other)]
      rw [and_iff_right (isHead toolName top isTop)]
      refine forall_congr' fun _ => not_congr ?_
      rw [ToolRow.On, topOn.1, topOn.2, main]
      simp
  constructor
  · intro after
    refine or_iff_not_imp_right.mpr fun takes => ?_
    rw [Bool.not_eq_false] at takes
    obtain ⟨top, isTop⟩ := exists_newestOn hold on
    have topFlag := after new.toolName (reupsert new top) (by rw [keeps.newestOn, isTop]; rfl)
    rcases (flag _ top isTop).mp topFlag with rfl | away
    · exact isHead _ _ isTop
    · exact absurd rfl (away takes)
  · rintro allowed toolName top isTop
    rw [keeps.newestOn] at isTop
    obtain ⟨before, was, rfl⟩ := Option.map_eq_some_iff.mp isTop
    rw [flag toolName before was]
    rcases allowed with oldFlag | leaves
    · by_cases here : toolName = new.toolName
      · subst here
        obtain ⟨member, beforeOn⟩ := newestOn_mem was
        exact .inl (wellFormed.heads before member old hold (isHead _ before was) oldFlag
          ⟨on.1.trans beforeOn.1.symm, on.2.trans beforeOn.2.symm⟩)
      · exact .inr fun _ => here
    · exact .inr fun takes => by rw [leaves] at takes; cases takes

omit main

theorem lineageFits_reupsert_iff (wellFormed : WellFormed table.rows)
    (isHead : NewestIsHead table.rows) (fits : LineageFits table.rows)
    (flag : old.isHead = true ∨ new.isHead = false) :
    LineageFits (table.rows.map (reupsert new)) ↔
      FitsAgain table.rows old new.lineageId new.isHead := by
  have keeps := reupsert_keepsPlace new
  have self := reupsert_lineageId_self same
  have others {row : ToolRow} (member : row ∈ table.rows) (other : row ≠ old) :=
    reupsert_lineageId_other hold same member other
  -- With the flag, the row is the newest of its tool.
  have newest (oldFlag : old.isHead = true) : newestOn table.rows old.toolName "main" = some old := by
    obtain ⟨top, isTop⟩ := exists_newestOn hold ⟨rfl, on.2⟩
    obtain ⟨member, topOn⟩ := newestOn_mem isTop
    rw [isTop, wellFormed.heads top member old hold (isHead _ top isTop) oldFlag
      ⟨topOn.1.symm, on.2.trans topOn.2.symm⟩]
  constructor
  · intro after
    refine ⟨flag, fun oldFlag other member apart onMain lineage => ?_, fun top isTop apart => ?_⟩
    · have fit := after old.toolName (reupsert new old)
        (by rw [keeps.newestOn, newest oldFlag]; rfl) (reupsert new other)
        (List.mem_map_of_mem member) (by rw [keeps.branch]; exact onMain)
        (by rw [others member apart]; exact lineage)
      rw [self] at fit
      exact fit.1
    · have fit := after new.lineageId (reupsert new top) (by rw [keeps.newestOn, isTop]; rfl)
        (reupsert new old) (List.mem_map_of_mem hold) (by rw [keeps.branch]; exact on.2) self
      rw [others (newestOn_mem isTop).1 apart, keeps.age, keeps.age] at fit
      exact fit
  · intro again toolName top isTop row member onMain lineage
    rw [keeps.newestOn] at isTop
    obtain ⟨before, was, rfl⟩ := Option.map_eq_some_iff.mp isTop
    obtain ⟨old', hold', rfl⟩ := List.mem_map.mp member
    obtain ⟨beforeMember, beforeOn⟩ := newestOn_mem was
    rw [keeps.branch] at onMain
    rw [keeps.age, keeps.age]
    by_cases isOld : old' = old
    · subst isOld
      rw [self] at lineage
      subst lineage
      by_cases isTop : before = old'
      · rw [isTop]
        exact ⟨self, le_rfl⟩
      · rw [others beforeMember isTop]
        exact again.foreign before was isTop
    · rw [others hold' isOld] at lineage
      obtain ⟨topLineage, below⟩ := fits toolName before was old' hold' onMain lineage
      refine ⟨?_, below⟩
      by_cases isTop : before = old
      · subst isTop
        rw [self, ← beforeOn.1]
        exact again.own (isHead _ _ was) old' hold' isOld onMain (lineage.trans beforeOn.1.symm)
      · rw [others beforeMember isTop]
        exact topLineage

end Reupsert

/-! ## Deleting -/

/-- A deletion takes the head of `main` only with all rows of `main`. -/
def DeletesMainWhole (rows : List ToolRow) (toolName version : String) : Prop :=
  version = "" ∨ ∀ head ∈ rows, head.On toolName "main" → head.isHead = true →
    head.version = version → ∀ other ∈ rows, other.On toolName "main" → other.version = version

/-- The newest row stays with any row of its branch. -/
theorem stays_of_deletesMainWhole {rows : List ToolRow} (isHead : NewestIsHead rows)
    {toolName version name : String} (whole : DeletesMainWhole rows toolName version)
    {top row : ToolRow} (isTop : newestOn rows name "main" = some top) (member : row ∈ rows)
    (on : row.On name "main") (stays : Stays toolName version row) :
    Stays toolName version top := by
  obtain ⟨topMember, topOn⟩ := newestOn_mem isTop
  rintro ⟨isTool, gone⟩
  have rowTool : row.toolName = toolName := on.1.trans (topOn.1.symm.trans isTool)
  rcases gone with all | isVersion
  · exact stays ⟨rowTool, .inl all⟩
  · rcases whole with all | whole
    · exact stays ⟨rowTool, .inl all⟩
    · refine stays ⟨rowTool, .inr (whole top topMember ⟨isTool, topOn.2⟩ (isHead name top isTop)
        isVersion row member ⟨rowTool, on.2⟩)⟩

theorem current_delete_iff {table : ToolTable} (wellFormed : WellFormed table.rows)
    (isHead : NewestIsHead table.rows) (fits : LineageFits table.rows)
    (toolName version : String) :
    NewestIsHead (table.rows.filter fun row => !selects toolName version row) ∧
        LineageFits (table.rows.filter fun row => !selects toolName version row) ↔
      DeletesMainWhole table.rows toolName version := by
  constructor
  · rintro ⟨after, _⟩
    refine or_iff_not_imp_left.mpr fun given head member on flag isVersion other hother otherOn => ?_
    by_contra stays
    have kept : other ∈ table.rows.filter fun row => !selects toolName version row :=
      mem_deleted_iff.mpr ⟨hother, fun gone => gone.2.elim given stays⟩
    obtain ⟨top, isTop⟩ := exists_newestOn kept otherOn
    obtain ⟨topKept, topOn⟩ := newestOn_mem isTop
    obtain ⟨topMember, topStays⟩ := mem_deleted_iff.mp topKept
    have same := wellFormed.heads top topMember head member (after toolName top isTop) flag
      ⟨on.1.trans topOn.1.symm, on.2.trans topOn.2.symm⟩
    exact topStays (same ▸ ⟨on.1, .inr isVersion⟩)
  · intro whole
    -- What is the newest row after the deletion was so before.
    have was (name : String) (top : ToolRow)
        (isTop : newestOn (table.delete (selects toolName version)).rows name "main" = some top) :
        newestOn table.rows name "main" = some top := by
      obtain ⟨kept, on⟩ := newestOn_mem isTop
      obtain ⟨member, stays⟩ := mem_deleted_iff.mp kept
      obtain ⟨before, isBefore⟩ := exists_newestOn member on
      obtain ⟨beforeMember, beforeOn⟩ := newestOn_mem isBefore
      have beforeStays := stays_of_deletesMainWhole isHead whole isBefore member on stays
      have below := le_newestOn isTop (mem_deleted_iff.mpr ⟨beforeMember, beforeStays⟩) beforeOn
      have above := le_newestOn isBefore member on
      rw [isBefore, age_injective table before beforeMember top member (le_antisymm below above)]
    refine ⟨fun name top isTop => isHead name top (was name top isTop), ?_⟩
    intro name top isTop row member
    exact fits name top (was name top isTop) row (mem_deleted_iff.mp member).1

/-! ## Runs -/

/-- The call keeps the ways to find the current version in agreement. -/
structure KeepsCurrent (s : StoreState V) (action : Env V × Call V) : Prop where
  inserted : ∀ row, insertedRow s action = some row → row.branch = "main" →
    FitsMain s.tools.rows row
  again : ∀ entry, action.2 = .upsertTool entry → ¬ VectorRefused s entry →
    ∀ old ∈ s.tools.rows, old.toolId = mainToolId entry.toolName (resolvedVersion entry) →
      FitsAgain s.tools.rows old (orElse entry.lineageId entry.toolName)
        (takesHead (flaggedHead s.tools.rows entry.toolName) (resolvedVersion entry))
  deleted : ∀ toolName version, action.2 = .deleteTool toolName version →
    DeletesMainWhole s.tools.rows toolName version

/-- An upsert of a version below the current one leaves the current one. -/
def LowUpsertKeeps (s : StoreState V) (action : Env V × Call V) : Prop :=
  ∀ entry, action.2 = .upsertTool entry → ∀ row, IsCurrent s.tools.rows entry.toolName row →
    0 < compareVersions row.version (resolvedVersion entry) →
      IsCurrent (step s action).tools.rows entry.toolName row

theorem fitsMain_map {rows : List ToolRow} {change : ToolRow → ToolRow} {row : ToolRow}
    (relabels : Relabels change) : FitsMain (rows.map change) row ↔ FitsMain rows row := by
  have tops (name : String) (goal : ToolRow → Prop)
      (same : ∀ top, goal (change top) ↔ goal top) :
      (∀ top, newestOn (rows.map change) name "main" = some top → goal top) ↔
        ∀ top, newestOn rows name "main" = some top → goal top := by
    rw [relabels.newestOn]
    simp [same]
  have order := tops row.toolName (fun top => row.isHead = true ↔ top.createdAt ≤ row.createdAt)
    fun top => by rw [relabels.createdAt]
  have foreign := tops row.lineageId (fun top => (row.isHead = true → row.lineageId ≠ row.toolName) →
      top.lineageId = row.lineageId ∧ row.createdAt < top.createdAt)
    fun top => by rw [relabels.lineageId, relabels.createdAt]
  have own : (row.isHead = true → ∀ other ∈ rows.map change, other.branch = "main" →
      other.lineageId = row.toolName →
        row.lineageId = row.toolName ∧ other.createdAt ≤ row.createdAt) ↔
      (row.isHead = true → ∀ other ∈ rows, other.branch = "main" →
        other.lineageId = row.toolName →
          row.lineageId = row.toolName ∧ other.createdAt ≤ row.createdAt) := by
    simp [relabels.branch, relabels.lineageId, relabels.createdAt]
  exact ⟨fun fits => ⟨order.mp fits.order, own.mp fits.own, foreign.mp fits.foreign⟩,
    fun fits => ⟨order.mpr fits.order, own.mpr fits.own, foreign.mpr fits.foreign⟩⟩

/-- The first row on `main` is its head. -/
theorem Makes.isHead_of_first {env : Env V} {rows : List ToolRow} {call : Call V} {row : ToolRow}
    (made : Makes env rows call row) (first : newestOn rows row.toolName "main" = none) :
    row.isHead = true := by
  rcases made.isHead_or_upsert with head | ⟨entry, rfl⟩
  · exact head
  · cases made with
    | upsert =>
        have none_flagged : flaggedHead rows entry.toolName = none :=
          flaggedHead_eq_none_iff.mpr fun row member on =>
            absurd on (newestOn_eq_none_iff.mp first row member)
        change takesHead (flaggedHead rows entry.toolName) (resolvedVersion entry) = true
        rw [none_flagged]
        rfl
    | version commits => cases commits
    | promotion promotes => cases promotes

/-- A row on another branch leaves the rows of `main`. -/
theorem current_insert_other_iff {rows : List ToolRow} {row : ToolRow}
    (isHead : NewestIsHead rows) (fits : LineageFits rows) (away : row.branch ≠ "main") :
    NewestIsHead (rows.map (makeRoom row) ++ [row]) ∧
      LineageFits (rows.map (makeRoom row) ++ [row]) := by
  have keeps := makeRoom_keepsPlace row
  have newest (toolName : String) : newestOn (rows.map (makeRoom row) ++ [row]) toolName "main" =
      (newestOn rows toolName "main").map (makeRoom row) :=
    newestOn_insert_other fun on => away on.2
  refine ⟨fun toolName top isTop => ?_, fun toolName top isTop other member onMain lineage => ?_⟩
  · rw [newest] at isTop
    obtain ⟨before, was, rfl⟩ := Option.map_eq_some_iff.mp isTop
    refine makeRoom_isHead.mpr ⟨isHead toolName before was, fun _ on => away ?_⟩
    exact on.2.symm.trans (newestOn_mem was).2.2
  · rw [newest] at isTop
    obtain ⟨before, was, rfl⟩ := Option.map_eq_some_iff.mp isTop
    rcases List.mem_append.mp member with inside | new
    · obtain ⟨old, hold, rfl⟩ := List.mem_map.mp inside
      rw [keeps.branch] at onMain
      rw [makeRoom_lineageId] at lineage ⊢
      rw [keeps.age, keeps.age]
      exact fits toolName before was old hold onMain lineage
    · rw [List.mem_singleton.mp new] at onMain
      exact absurd onMain away

theorem current_insert_iff {env : Env V} {s : StoreState V} {call : Call V} {row : ToolRow}
    (made : Makes env s.tools.rows call row) (fresh : Fresh s.tools.rows (stored s.tools row))
    (isHead : NewestIsHead s.tools.rows) (fits : LineageFits s.tools.rows) :
    NewestIsHead (s.tools.rows.map (makeRoom (stored s.tools row)) ++ [stored s.tools row]) ∧
        LineageFits (s.tools.rows.map (makeRoom (stored s.tools row)) ++ [stored s.tools row]) ↔
      (row.branch = "main" → FitsMain s.tools.rows row) := by
  have fits_stored : FitsMain s.tools.rows (stored s.tools row) ↔ FitsMain s.tools.rows row :=
    ⟨fun f => ⟨f.order, f.own, f.foreign⟩, fun f => ⟨f.order, f.own, f.foreign⟩⟩
  by_cases main : row.branch = "main"
  · have head := newestIsHead_insert_iff fresh isHead main made.isHead_of_first
    rw [forall_prop_of_true main, ← fits_stored]
    constructor
    · rintro ⟨afterHead, afterFits⟩
      exact (lineageFits_insert_iff fresh fits main made.isHead_of_first
        (head.mp afterHead)).mp afterFits
    · intro fitsMain
      exact ⟨head.mpr fitsMain.order, (lineageFits_insert_iff fresh fits main
        made.isHead_of_first fitsMain.order).mpr fitsMain⟩
  · exact iff_of_true (current_insert_other_iff isHead fits main) fun onMain => absurd onMain main

theorem RowsAfter.current_iff {env : Env V} {s : StoreState V} {call : Call V}
    {next : List ToolRow} (after : RowsAfter env s call next)
    (notUpsert : ∀ entry, call ≠ .upsertTool entry)
    (notDelete : ∀ toolName version, call ≠ .deleteTool toolName version)
    (isHead : NewestIsHead s.tools.rows) (fits : LineageFits s.tools.rows) :
    NewestIsHead next ∧ LineageFits next ↔
      ∀ row, newRow env s call = some row → row.branch = "main" → FitsMain s.tools.rows row := by
  cases after with
  | same nothing => exact iff_of_true ⟨isHead, fits⟩ (by simp [nothing])
  | reupsert => exact absurd rfl (notUpsert _)
  | delete => exact absurd rfl (notDelete _ _)
  | insert new fresh =>
      rw [current_insert_iff (makes_of_newRow new).1 fresh isHead fits, new]
      simp only [Option.some.injEq, forall_eq']

theorem current_upsert_iff (env : Env V) (entry : ToolEntry V) {s : StoreState V}
    (wellFormed : WellFormed s.tools.rows) (isHead : NewestIsHead s.tools.rows)
    (fits : LineageFits s.tools.rows) :
    NewestIsHead (upsertTool env entry s).2.tools.rows ∧
        LineageFits (upsertTool env entry s).2.tools.rows ↔
      KeepsCurrent s (env, .upsertTool entry) := by
  rcases upsertTool_tools env entry s with ⟨refused, unchanged⟩ | ⟨accepted, written⟩
  · rw [unchanged]
    refine iff_of_true ⟨isHead, fits⟩ ⟨?_, ?_, ?_⟩
    · intro row new
      have nothing : insertedRow s (env, .upsertTool entry) = none := if_pos refused
      rw [nothing] at new
      cases new
    · rintro _ ⟨rfl⟩ accepted
      exact absurd refused accepted
    · rintro _ _ ⟨⟩
  rw [written]
  have version := isValidSemver_resolveInitialVersion
    (orElse entry.version entry.definition.version) (normalizeOrigin (some entry.origin))
  rcases upsertInto_rows s.tools (upsertRow env entry s.tools.rows) with
    ⟨rows, fresh⟩ | ⟨rows, old, hold, same⟩
  · have new : insertedRow s (env, .upsertTool entry) = some (upsertRow env entry s.tools.rows) :=
      (if_neg accepted).trans (free_eq_some_iff.mpr ⟨fresh.toolId, rfl⟩)
    rw [rows, current_insert_iff (Makes.upsert) fresh isHead fits]
    constructor
    · intro fitsMain
      refine ⟨fun row isNew => ?_, ?_, ?_⟩
      · obtain rfl := Option.some.inj (new.symm.trans isNew)
        exact fitsMain
      · rintro _ ⟨rfl⟩ _ old hold taken
        exact absurd taken (fresh.toolId old hold)
      · rintro _ _ ⟨⟩
    · exact fun keeps => keeps.inserted _ new
  · have on := (wellFormed.on_of_toolId hold legalBranch_main version
      (same.trans (toolIdOn_main _ _).symm)).1
    rw [rows]
    constructor
    · rintro ⟨afterHead, afterFits⟩
      have flag := (newestIsHead_reupsert_iff hold same on rfl wellFormed isHead).mp afterHead
      have again := (lineageFits_reupsert_iff hold same on wellFormed isHead fits flag).mp afterFits
      refine ⟨fun row isNew => ?_, ?_, ?_⟩
      · have nothing : insertedRow s (env, .upsertTool entry) = none :=
          newRow_upsert_taken ⟨old, hold, same⟩
        rw [nothing] at isNew
        cases isNew
      · rintro _ ⟨rfl⟩ _ other hother taken
        rw [RowTable.eq_of_uniqueKey hother hold (taken.trans same.symm)]
        exact again
      · rintro _ _ ⟨⟩
    · intro keeps
      have again := keeps.again entry rfl accepted old hold same
      exact ⟨(newestIsHead_reupsert_iff hold same on rfl wellFormed isHead).mpr again.flag,
        (lineageFits_reupsert_iff hold same on wellFormed isHead fits again.flag).mpr again⟩

theorem currentAgrees_step_iff (s : StoreState V) (action : Env V × Call V)
    (wellFormed : WellFormed s.tools.rows) (agrees : CurrentAgrees s.tools.rows) :
    CurrentAgrees (step s action).tools.rows ↔ KeepsCurrent s action := by
  obtain ⟨isHead, fits⟩ := (currentAgrees_iff wellFormed).mp agrees
  rw [currentAgrees_iff (step_wellFormed s action wellFormed)]
  obtain ⟨env, call⟩ := action
  have other (notUpsert : ∀ entry, call ≠ .upsertTool entry)
      (notDelete : ∀ toolName version, call ≠ .deleteTool toolName version) :
      NewestIsHead (step s (env, call)).tools.rows ∧ LineageFits (step s (env, call)).tools.rows ↔
        KeepsCurrent s (env, call) := by
    obtain ⟨change, relabels, rows⟩ := marked_rows s call
    have after := (step_rows s (env, call)).current_iff notUpsert notDelete
      (by rw [rows]; exact isHead.map relabels) (by rw [rows]; exact fits.map relabels)
    rw [rows] at after
    simp only [fitsMain_map relabels] at after
    refine after.trans ⟨fun inserted => ⟨inserted, ?_, ?_⟩, fun keeps => keeps.inserted⟩
    · exact fun entry isUpsert => absurd isUpsert (notUpsert entry)
    · exact fun toolName version isDelete => absurd isDelete (notDelete toolName version)
  cases call with
  | upsertTool entry => exact current_upsert_iff env entry wellFormed isHead fits
  | deleteTool toolName version =>
      change NewestIsHead (deleteTool toolName version s).2.tools.rows ∧
        LineageFits (deleteTool toolName version s).2.tools.rows ↔ _
      rw [deleteTool_tools_rows, current_delete_iff wellFormed isHead fits]
      constructor
      · intro whole
        refine ⟨?_, ?_, ?_⟩
        · rintro _ ⟨⟩
        · rintro _ ⟨⟩
        · rintro _ _ ⟨rfl, rfl⟩
          exact whole
      · exact fun keeps => keeps.deleted toolName version rfl
  | _ => exact other (by simp) (by simp)

/-- An upsert below the head does not touch the head's row. -/
theorem mem_upsert_of_below {env : Env V} {entry : ToolEntry V} {s : StoreState V} {head : ToolRow}
    (wellFormed : WellFormed s.tools.rows)
    (flagged : flaggedHead s.tools.rows entry.toolName = some head)
    (below : 0 < compareVersions head.version (resolvedVersion entry)) :
    head ∈ (upsertTool env entry s).2.tools.rows := by
  obtain ⟨member, on, _⟩ := flaggedHead_mem flagged
  have notEmpty : head.version ≠ "" := by
    intro empty
    have valid := (wellFormed.each head member).version
    rw [empty] at valid
    exact absurd valid (by decide)
  have leaves : (upsertRow env entry s.tools.rows).isHead = false := by
    change takesHead (flaggedHead s.tools.rows entry.toolName) (resolvedVersion entry) = false
    rw [flagged, takesHead]
    simp [notEmpty, below]
  rcases upsertTool_tools env entry s with ⟨_, unchanged⟩ | ⟨_, written⟩
  · rwa [unchanged]
  rw [written]
  rcases upsertInto_rows s.tools (upsertRow env entry s.tools.rows) with ⟨rows, _⟩ | ⟨rows, _⟩
  · have room : makeRoom (stored s.tools (upsertRow env entry s.tools.rows)) = id :=
      if_neg (by rw [stored, ToolRow.numbered, leaves]; exact Bool.false_ne_true)
    rw [rows, room, List.map_id]
    exact List.mem_append_left _ member
  · rw [rows]
    have room : makeRoom (upsertRow env entry s.tools.rows) = id :=
      if_neg (by rw [leaves]; exact Bool.false_ne_true)
    have apart : head.toolId ≠ (upsertRow env entry s.tools.rows).toolId := by
      intro same
      have version := isValidSemver_resolveInitialVersion
        (orElse entry.version entry.definition.version) (normalizeOrigin (some entry.origin))
      have isVersion := (wellFormed.on_of_toolId member legalBranch_main version
        (same.trans (toolIdOn_main _ _).symm)).2
      rw [compareVersions_pos_iff, isVersion] at below
      exact lt_irrefl _ below
    refine List.mem_map.mpr ⟨head, member, ?_⟩
    rw [reupsert, if_neg apart, room]
    rfl

theorem lowUpsertKeeps_of_agrees (s : StoreState V) (action : Env V × Call V)
    (wellFormed : WellFormed s.tools.rows) (after : CurrentAgrees (step s action).tools.rows) :
    LowUpsertKeeps s action := by
  obtain ⟨env, call⟩ := action
  rintro entry rfl row isCurrent below
  obtain ⟨_, on, flag⟩ := flaggedHead_mem isCurrent.promoted
  have member : row ∈ (step s (env, .upsertTool entry)).tools.rows :=
    mem_upsert_of_below wellFormed isCurrent.promoted below
  obtain ⟨row', isCurrent'⟩ := after entry.toolName ⟨row, member, on⟩
  have flagged := (step_wellFormed s (env, .upsertTool entry) wellFormed).flaggedHead_eq_some_iff.mpr
    ⟨member, on, flag⟩
  rw [Option.some.inj (flagged.symm.trans isCurrent'.promoted)]
  exact isCurrent'

/--
In a run from an empty store, all ways to find the current version agree in all
states, and no upsert of a lower version changes it, exactly if all calls keep
them in agreement.
-/
theorem currentAgrees_throughout_iff (vecExtension : Option (VecExtension V))
    (actions : List (Env V × Call V)) :
    Throughout step (fun s => CurrentAgrees s.tools.rows) (StoreState.empty vecExtension) actions ∧
        StepsMeet step LowUpsertKeeps (StoreState.empty vecExtension) actions ↔
      StepsMeet step KeepsCurrent (StoreState.empty vecExtension) actions := by
  refine throughout_and_stepsMeet_iff (fun s : StoreState V => WellFormed s.tools.rows)
    (fun s => CurrentAgrees s.tools.rows) step_wellFormed ?_ (wellFormed_empty vecExtension) ?_
    actions
  · intro s action wellFormed agrees
    rw [currentAgrees_step_iff s action wellFormed agrees]
    refine and_iff_left_of_imp fun keeps => lowUpsertKeeps_of_agrees s action wellFormed ?_
    exact (currentAgrees_step_iff s action wellFormed agrees).mpr keeps
  · rintro toolName ⟨row, member, _⟩
    cases member

/-- `get_tool` answers with the lower version, `list_tools` with the higher one. -/
theorem not_currentAgrees_registeredLow :
    ¬ CurrentAgrees (run step (StoreState.empty none) registeredLow).tools.rows := by
  intro agrees
  have here : HasBranch (run step (StoreState.empty none) registeredLow).tools.rows
      "tool" "main" := by decide
  obtain ⟨row, isCurrent⟩ := agrees "tool" here
  have created : (newestOn (run step (StoreState.empty none) registeredLow).tools.rows
      "tool" "main").map ToolRow.version = some "0.5.0" := by rfl
  have promoted : (flaggedHead (run step (StoreState.empty none) registeredLow).tools.rows
      "tool").map ToolRow.version = some "1.0.0" := by rfl
  rw [isCurrent.created] at created
  rw [isCurrent.promoted] at promoted
  exact absurd (created.symm.trans promoted) (by decide)

end YouMi.Mcp.ToolStore

import YouMi.Mcp.ToolStore.WellFormed

/-!
# Creation order and version order

`create_version` bumps the row of the branch created last.  It always succeeds
above all other versions exactly if that row has the greatest version of its
branch, which a row put in at the wrong time or a deletion can end.
-/

namespace YouMi.Mcp.ToolStore

open YouMi.Core YouMi.Library

variable {V : Type}

/-! ## Bumping above a version -/

/-- Bumping the version without a kind of change raises it. -/
def Bumpable (version : String) : Prop :=
  Readable version ∨ precedence version < precedence "0.0.1"

theorem lt_bumped_patch_iff {version : String} {v : Semver} :
    precedence version < (v.bumped .patch : WithBot Semver) ↔
      precedence version ≤ (v : WithBot Semver) := by
  cases precedence version with
  | bot => simp
  | coe w => rw [WithBot.coe_lt_coe, WithBot.coe_le_coe, Semver.lt_bumped_patch_iff]

theorem readable_nextVersion {current : String} (valid : isValidSemver current = true)
    (bump changeKind : String) : Readable (nextVersion current bump changeKind) := by
  obtain ⟨v, parsed⟩ := exists_of_isValidSemver valid
  unfold nextVersion
  split
  · rw [bumpFor, parsed]
    exact readable_raise v _
  · by_cases readable : Readable current
    · rw [bumpVersion, readParts_of_readable parsed readable]
      exact readable_raise v _
    · rw [bumpVersion_of_not_readable readable]
      decide

theorem precedence_lt_nextVersion {current : String} (valid : isValidSemver current = true)
    (bumpable : Bumpable current) (bump changeKind : String) :
    precedence current < precedence (nextVersion current bump changeKind) := by
  obtain ⟨v, parsed⟩ := exists_of_isValidSemver valid
  have above (bumpType : BumpType) : precedence current < (v.bumped bumpType : WithBot Semver) := by
    rw [precedence_of_parse parsed, WithBot.coe_lt_coe]
    exact v.lt_bumped bumpType
  unfold nextVersion
  split
  · obtain ⟨bumpType, read, _⟩ := parseSemver_bumpFor parsed changeKind
    rw [precedence_of_parse read]
    exact above bumpType
  · by_cases readable : Readable current
    · rw [precedence_of_parse (bumpVersion_of_readable parsed readable)]
      exact above _
    · rw [bumpVersion_of_not_readable readable]
      exact bumpable.resolve_left readable

/-- All bumps of a version are above another one only if the other is not above it. -/
theorem le_of_forall_lt_nextVersion {current version : String}
    (valid : isValidSemver current = true)
    (above : ∀ bump changeKind,
      precedence version < precedence (nextVersion current bump changeKind)) :
    precedence version ≤ precedence current := by
  obtain ⟨v, parsed⟩ := exists_of_isValidSemver valid
  have fix := above "" "fix"
  rw [nextVersion, if_pos (by decide), precedence_of_parse (parseSemver_bumpFor_fix parsed),
    lt_bumped_patch_iff] at fix
  rw [precedence_of_parse parsed]
  exact fix

theorem bumpable_of_forall_lt_nextVersion {current : String}
    (above : ∀ bump changeKind,
      precedence current < precedence (nextVersion current bump changeKind)) :
    Bumpable current := by
  by_cases readable : Readable current
  · exact .inl readable
  · have plain := above "" ""
    rw [nextVersion, if_neg (by simp), bumpVersion_of_not_readable readable] at plain
    exact .inr plain

/-! ## The property of a state -/

/--
A new version of every branch with rows is committed, however it is bumped, and
is above all versions of the branch.
-/
def AlwaysBumps (s : StoreState V) : Prop :=
  ∀ toolName branch, HasBranch s.tools.rows toolName branch →
    ∀ env newDefinition changelog bump changeKind, ∃ toolId,
      (createVersion env toolName newDefinition changelog bump branch changeKind s).1 =
        .ok toolId ∧
      ∃ row ∈ (createVersion env toolName newDefinition changelog bump branch changeKind
          s).2.tools.rows,
        row.toolId = toolId ∧ row.On toolName branch ∧
          ∀ old ∈ s.tools.rows, old.On toolName branch →
            old.version ≠ row.version ∧ 0 < compareVersions row.version old.version

/-- The newest row of every branch has a version that can be bumped and is the greatest. -/
def NewestGreatest (rows : List ToolRow) : Prop :=
  ∀ toolName branch top, newestOn rows toolName branch = some top → Bumpable top.version ∧
    ∀ row ∈ rows, row.On toolName branch → precedence row.version ≤ precedence top.version

theorem alwaysBumps_of_newestGreatest {s : StoreState V} (wellFormed : WellFormed s.tools.rows)
    (greatest : NewestGreatest s.tools.rows) : AlwaysBumps s := by
  rintro toolName branch ⟨some_row, member, on⟩ env newDefinition changelog bump changeKind
  obtain ⟨top, isTop⟩ := exists_newestOn member on
  obtain ⟨htop, topOn⟩ := newestOn_mem isTop
  obtain ⟨bumpable, above⟩ := greatest toolName branch top isTop
  have form := wellFormed.each top htop
  have lt (old : ToolRow) (hold : old ∈ s.tools.rows) (oldOn : old.On toolName branch) :
      precedence old.version < precedence (nextVersion top.version bump changeKind) :=
    (above old hold oldOn).trans_lt
      (precedence_lt_nextVersion form.version bumpable bump changeKind)
  -- The identifier is free since the version is.
  obtain ⟨next, committed⟩ : ∃ next, commitHead s.tools
      (versionRow env toolName newDefinition bump branch changeKind top) = some next := by
    refine Option.ne_none_iff_exists'.mp fun full => ?_
    obtain ⟨old, hold, taken⟩ := commitHead_eq_none_iff.mp full
    obtain ⟨oldOn, same⟩ := wellFormed.on_of_toolId hold (topOn.2 ▸ form.branch)
      (isValidSemver_nextVersion bump changeKind form.version) taken
    exact absurd (lt old hold oldOn) (by rw [same]; exact lt_irrefl _)
  obtain ⟨done, tools⟩ := createVersion_ok isTop newDefinition changelog committed
  have rows := (commitHead_rows rfl committed).1
  refine ⟨_, done,
    stored s.tools (versionRow env toolName newDefinition bump branch changeKind top), ?_, rfl,
    ⟨rfl, rfl⟩, ?_⟩
  · rw [tools, rows]
    exact List.mem_append_right _ (List.mem_singleton_self _)
  · intro old hold oldOn
    have less := lt old hold oldOn
    refine ⟨fun same => ?_, compareVersions_pos_iff.mpr less⟩
    rw [same] at less
    exact lt_irrefl _ less

theorem newestGreatest_of_alwaysBumps {s : StoreState V} (wellFormed : WellFormed s.tools.rows)
    (bumps : AlwaysBumps s) : NewestGreatest s.tools.rows := by
  intro toolName branch top isTop
  obtain ⟨htop, topOn⟩ := newestOn_mem isTop
  have form := wellFormed.each top htop
  have above (row : ToolRow) (member : row ∈ s.tools.rows) (on : row.On toolName branch)
      (bump changeKind : String) :
      precedence row.version < precedence (nextVersion top.version bump changeKind) := by
    let env : Env V := ⟨0, none, none⟩
    obtain ⟨toolId, done, new, hnew, isNew, newOn, greater⟩ := bumps toolName branch
      ⟨top, htop, topOn⟩ env (plainDefinition "") "" bump changeKind
    cases committed : commitHead s.tools
        (versionRow env toolName (plainDefinition "") bump branch changeKind top) with
    | none =>
        rw [createVersion_taken isTop _ _ committed] at done
        cases done
    | some next =>
        rw [(createVersion_ok isTop (plainDefinition "") "" committed).1] at done
        rw [← Except.ok.inj done] at isNew
        -- The row under the new identifier has the new version.
        have after := step_wellFormed s
          (env, .createVersion toolName (plainDefinition "") "" bump branch changeKind) wellFormed
        have isVersion := (after.on_of_toolId hnew (topOn.2 ▸ form.branch)
          (isValidSemver_nextVersion bump changeKind form.version) isNew).2
        rw [← isVersion]
        exact compareVersions_pos_iff.mp (greater row member on).2
  exact ⟨bumpable_of_forall_lt_nextVersion (above top htop topOn),
    fun row member on => le_of_forall_lt_nextVersion form.version (above row member on)⟩

/-! ## What keeps the newest row the greatest -/

theorem NewestGreatest.map {rows : List ToolRow} {change : ToolRow → ToolRow}
    (greatest : NewestGreatest rows) (keeps : KeepsPlace change) :
    NewestGreatest (rows.map change) := by
  intro toolName branch top isTop
  rw [keeps.newestOn] at isTop
  obtain ⟨old, isOld, rfl⟩ := Option.map_eq_some_iff.mp isTop
  obtain ⟨bumpable, above⟩ := greatest toolName branch old isOld
  refine ⟨by rwa [keeps.version], fun row member on => ?_⟩
  obtain ⟨before, hbefore, rfl⟩ := List.mem_map.mp member
  rw [keeps.version, keeps.version]
  exact above before hbefore (keeps.on.mp on)

/--
A row comes after the newest row of its branch with a version that can be bumped
and is not below it, or before it with one that is not above it.
-/
def PlacedInOrder (rows : List ToolRow) (row : ToolRow) : Prop :=
  match newestOn rows row.toolName row.branch with
  | none => Bumpable row.version
  | some top =>
      if top.createdAt ≤ row.createdAt then
        Bumpable row.version ∧ precedence top.version ≤ precedence row.version
      else precedence row.version ≤ precedence top.version

theorem placedInOrder_of_insert {rows : List ToolRow} {row : ToolRow} (fresh : Fresh rows row)
    (greatest : NewestGreatest (rows.map (makeRoom row) ++ [row])) : PlacedInOrder rows row := by
  have keeps := makeRoom_keepsPlace row
  have newest := newestOn_insert_self fresh
  have here := greatest row.toolName row.branch
  unfold PlacedInOrder
  cases isTop : newestOn rows row.toolName row.branch with
  | none =>
      rw [isTop] at newest
      exact (here row newest).1
  | some top =>
      rw [isTop] at newest
      obtain ⟨member, on⟩ := newestOn_mem isTop
      dsimp only at newest ⊢
      split
      · rename_i later
        rw [if_pos later] at newest
        obtain ⟨bumpable, above⟩ := here row newest
        refine ⟨bumpable, ?_⟩
        have old := above (makeRoom row top)
          (List.mem_append_left _ (List.mem_map_of_mem member)) (keeps.on.mpr on)
        rwa [keeps.version] at old
      · rename_i earlier
        rw [if_neg earlier] at newest
        have new := (here (makeRoom row top) newest).2 row (by simp) ⟨rfl, rfl⟩
        rwa [keeps.version] at new

theorem NewestGreatest.insert {rows : List ToolRow} {row : ToolRow} (fresh : Fresh rows row)
    (greatest : NewestGreatest rows) (placed : PlacedInOrder rows row) :
    NewestGreatest (rows.map (makeRoom row) ++ [row]) := by
  have keeps := makeRoom_keepsPlace row
  intro toolName branch top isTop
  by_cases here : row.On toolName branch
  · obtain ⟨rfl, rfl⟩ := here
    rw [newestOn_insert_self fresh] at isTop
    unfold PlacedInOrder at placed
    have each (bound : WithBot Semver) (new : precedence row.version ≤ bound)
        (old : ∀ other ∈ rows, other.On row.toolName row.branch →
          precedence other.version ≤ bound) :
        ∀ other ∈ rows.map (makeRoom row) ++ [row], other.On row.toolName row.branch →
          precedence other.version ≤ bound := by
      intro other member on
      rcases List.mem_append.mp member with inside | last
      · obtain ⟨before, hbefore, rfl⟩ := List.mem_map.mp inside
        rw [keeps.version]
        exact old before hbefore (keeps.on.mp on)
      · rwa [List.mem_singleton.mp last]
    cases was : newestOn rows row.toolName row.branch with
    | none =>
        rw [was] at isTop placed
        obtain rfl := Option.some.inj isTop
        refine ⟨placed, each _ le_rfl fun other member on => ?_⟩
        exact absurd on (newestOn_eq_none_iff.mp was other member)
    | some before =>
        rw [was] at isTop placed
        obtain ⟨bumpable, above⟩ := greatest row.toolName row.branch before was
        dsimp only at isTop placed
        split at isTop
        · rename_i later
          rw [if_pos later] at placed
          obtain rfl := Option.some.inj isTop
          exact ⟨placed.1,
            each _ le_rfl fun other member on => (above other member on).trans placed.2⟩
        · rename_i earlier
          rw [if_neg earlier] at placed
          obtain rfl := Option.some.inj isTop
          rw [keeps.version]
          exact ⟨bumpable, each _ placed above⟩
  · rw [newestOn_insert_other here] at isTop
    obtain ⟨before, was, rfl⟩ := Option.map_eq_some_iff.mp isTop
    obtain ⟨bumpable, above⟩ := greatest toolName branch before was
    rw [keeps.version]
    refine ⟨bumpable, fun other member on => ?_⟩
    rcases List.mem_append.mp member with inside | last
    · obtain ⟨old, hold, rfl⟩ := List.mem_map.mp inside
      rw [keeps.version]
      exact above old hold (keeps.on.mp on)
    · rw [List.mem_singleton.mp last] at on
      exact absurd on here

/-- Of the rows a deletion leaves on a branch, the last has the greatest version. -/
def DeletesInOrder (rows : List ToolRow) (toolName version : String) : Prop :=
  ∀ top ∈ rows, Stays toolName version top →
    (∀ other ∈ rows, Stays toolName version other → other.On top.toolName top.branch →
      other.age ≤ top.age) →
    Bumpable top.version ∧
      ∀ other ∈ rows, Stays toolName version other → other.On top.toolName top.branch →
        precedence other.version ≤ precedence top.version

theorem newestGreatest_delete_iff (table : ToolTable) (toolName version : String) :
    NewestGreatest (table.rows.filter fun row => !selects toolName version row) ↔
      DeletesInOrder table.rows toolName version := by
  have left : (table.delete (selects toolName version)).rows =
      table.rows.filter fun row => !selects toolName version row := rfl
  constructor
  · intro greatest top member stays last
    have isTop : newestOn (table.delete (selects toolName version)).rows top.toolName top.branch =
        some top := by
      rw [newestOn_eq_some_iff, left]
      refine ⟨⟨mem_deleted_iff.mpr ⟨member, stays⟩, rfl, rfl⟩, fun other hother on => ?_⟩
      obtain ⟨here, otherStays⟩ := mem_deleted_iff.mp hother
      exact last other here otherStays on
    obtain ⟨bumpable, above⟩ := greatest top.toolName top.branch top isTop
    exact ⟨bumpable, fun other here otherStays =>
      above other (mem_deleted_iff.mpr ⟨here, otherStays⟩)⟩
  · intro inOrder name branch top isTop
    obtain ⟨hkept, rfl, rfl⟩ := newestOn_mem isTop
    obtain ⟨member, stays⟩ := mem_deleted_iff.mp hkept
    obtain ⟨bumpable, above⟩ := inOrder top member stays fun other here otherStays =>
      le_newestOn isTop (mem_deleted_iff.mpr ⟨here, otherStays⟩)
    refine ⟨bumpable, fun other hother => ?_⟩
    obtain ⟨here, otherStays⟩ := mem_deleted_iff.mp hother
    exact above other here otherStays

/-! ## What keeps the head of main from going down -/

/-- No head of `main` is replaced by one with a smaller version. -/
def NoHeadDrop (rows next : List ToolRow) : Prop :=
  ∀ toolName head head', flaggedHead rows toolName = some head →
    flaggedHead next toolName = some head' → compareVersions head.version head'.version ≤ 0

theorem noHeadDrop_of_relabels {rows next : List ToolRow} {change : ToolRow → ToolRow}
    (relabels : Relabels change) :
    NoHeadDrop (rows.map change) next ↔ NoHeadDrop rows next := by
  unfold NoHeadDrop
  simp only [relabels.flaggedHead, Option.map_eq_some_iff]
  constructor
  · intro noDrop toolName head head' was now
    have := noDrop toolName (change head) head' ⟨head, was, rfl⟩ now
    rwa [relabels.version] at this
  · rintro noDrop toolName _ head' ⟨head, was, rfl⟩ now
    rw [relabels.version]
    exact noDrop toolName head head' was now

theorem noHeadDrop_refl (rows : List ToolRow) : NoHeadDrop rows rows := by
  intro toolName head head' was now
  obtain rfl := Option.some.inj (was.symm.trans now)
  rw [compareVersions_nonpos_iff]

theorem noHeadDrop_delete {rows : List ToolRow} (wellFormed : WellFormed rows)
    (keep : ToolRow → Bool) : NoHeadDrop rows (rows.filter keep) := by
  intro toolName head head' was now
  obtain ⟨member, on, flag⟩ := flaggedHead_mem now
  have same := wellFormed.flaggedHead_eq_some_iff.mpr ⟨(List.mem_filter.mp member).1, on, flag⟩
  obtain rfl := Option.some.inj (was.symm.trans same)
  rw [compareVersions_nonpos_iff]

/-- A row that becomes the head of `main` is not below the head it replaces. -/
theorem noHeadDrop_insert_iff {rows : List ToolRow} {row : ToolRow} (wellFormed : WellFormed rows)
    (new : WellFormedRow row) (isHead : row.isHead = true) :
    NoHeadDrop rows (rows.map (makeRoom row) ++ [row]) ↔
      (row.branch = "main" → ∀ head, flaggedHead rows row.toolName = some head →
        precedence head.version ≤ precedence row.version) := by
  have keeps := makeRoom_keepsPlace row
  have after := wellFormed.insert new
  constructor
  · intro noDrop main head was
    have now := after.flaggedHead_eq_some_iff.mpr
      ⟨List.mem_append_right _ (List.mem_singleton_self row), ⟨rfl, main⟩, isHead⟩
    exact compareVersions_nonpos_iff.mp (noDrop row.toolName head row was now)
  · intro notBelow toolName head head' was now
    rw [compareVersions_nonpos_iff]
    obtain ⟨member, on, flag⟩ := flaggedHead_mem now
    rcases List.mem_append.mp member with inside | last
    · obtain ⟨old, hold, rfl⟩ := List.mem_map.mp inside
      have same := wellFormed.flaggedHead_eq_some_iff.mpr
        ⟨hold, keeps.on.mp on, makeRoom_onlyDemotes row old flag⟩
      obtain rfl := Option.some.inj (was.symm.trans same)
      rw [keeps.version]
    · rw [List.mem_singleton.mp last] at on ⊢
      obtain ⟨rfl, main⟩ := on
      exact notBelow main head was

theorem placedInOrder_iff {rows : List ToolRow} {row top : ToolRow}
    (isTop : newestOn rows row.toolName row.branch = some top) :
    PlacedInOrder rows row ↔
      (top.createdAt ≤ row.createdAt →
        Bumpable row.version ∧ precedence top.version ≤ precedence row.version) ∧
      (row.createdAt < top.createdAt → precedence row.version ≤ precedence top.version) := by
  unfold PlacedInOrder
  rw [isTop]
  dsimp only
  split
  · rename_i later
    simp [later, not_lt_of_ge later]
  · rename_i earlier
    simp [earlier, lt_of_not_ge earlier]

/-- A new version comes in order unless the clock went back. -/
theorem placedInOrder_versionRow_iff {env : Env V} {rows : List ToolRow} {toolName branch : String}
    {old : ToolRow} (wellFormed : WellFormed rows) (greatest : NewestGreatest rows)
    (top : newestOn rows toolName branch = some old) (newDefinition : ToolDefinition)
    (bump changeKind : String) :
    PlacedInOrder rows (versionRow env toolName newDefinition bump branch changeKind old) ↔
      old.createdAt ≤ env.now := by
  have valid := (wellFormed.each old (newestOn_mem top).1).version
  have above := precedence_lt_nextVersion valid (greatest _ _ _ top).1 bump changeKind
  have onTop : newestOn rows
      (versionRow env toolName newDefinition bump branch changeKind old).toolName
      (versionRow env toolName newDefinition bump branch changeKind old).branch = some old := top
  rw [placedInOrder_iff onTop]
  constructor
  · rintro ⟨_, before⟩
    by_contra earlier
    exact not_le_of_gt above (before (lt_of_not_ge earlier))
  · exact fun later => ⟨fun _ => ⟨.inl (readable_nextVersion valid bump changeKind), above.le⟩,
      fun earlier => absurd later (not_le_of_gt earlier)⟩

/-! ## Runs -/

/--
The call keeps the newest rows the greatest: the row it inserts comes in order,
a promotion does not go below the head, and a deletion leaves rows in order.
-/
structure KeepsVersionOrder (s : StoreState V) (action : Env V × Call V) : Prop where
  placed : ∀ row, insertedRow s action = some row → PlacedInOrder s.tools.rows row
  promoted : ∀ toolName row head, Promotes action.2 toolName → insertedRow s action = some row →
    flaggedHead s.tools.rows toolName = some head →
      precedence head.version ≤ precedence row.version
  deleted : ∀ toolName version, action.2 = .deleteTool toolName version →
    DeletesInOrder s.tools.rows toolName version

/-- The call does not move the head of `main` down, unless it is an upsert. -/
def KeepsHeadsUp (s : StoreState V) (action : Env V × Call V) : Prop :=
  (∀ entry, action.2 ≠ .upsertTool entry) → NoHeadDrop s.tools.rows (step s action).tools.rows

theorem placedInOrder_map {rows : List ToolRow} {change : ToolRow → ToolRow} {row : ToolRow}
    (keeps : KeepsPlace change) : PlacedInOrder (rows.map change) row ↔ PlacedInOrder rows row := by
  unfold PlacedInOrder
  rw [keeps.newestOn]
  cases newestOn rows row.toolName row.branch with
  | none => rfl
  | some top =>
      dsimp only [Option.map_some]
      rw [keeps.createdAt, keeps.version]

/-- Of the rows inserted other than by an upsert, only a promotion can go below the head. -/
theorem Makes.notBelow_head {env : Env V} {rows : List ToolRow} {call : Call V} {row : ToolRow}
    (made : Makes env rows call row) (notUpsert : ∀ entry, call ≠ .upsertTool entry)
    (wellFormed : WellFormed rows) (greatest : NewestGreatest rows)
    (promoted : ∀ toolName head, Promotes call toolName → flaggedHead rows toolName = some head →
      precedence head.version ≤ precedence row.version)
    (main : row.branch = "main") {head : ToolRow}
    (was : flaggedHead rows row.toolName = some head) :
    precedence head.version ≤ precedence row.version := by
  cases made with
  | upsert => exact absurd rfl (notUpsert _)
  | version commits top =>
      obtain ⟨member, on, _⟩ := flaggedHead_mem was
      obtain ⟨bumpable, above⟩ := greatest _ _ _ top
      have form := wellFormed.each _ (newestOn_mem top).1
      have below := above head member ⟨on.1, on.2.trans main.symm⟩
      exact below.trans (precedence_lt_nextVersion form.version bumpable _ _).le
  | branch notMain => exact absurd main notMain
  | promotion promotes => exact promoted _ head promotes was

theorem RowsAfter.versionOrder_iff {env : Env V} {s : StoreState V} {call : Call V}
    {next : List ToolRow} (after : RowsAfter env s call next)
    (notDelete : ∀ toolName version, call ≠ .deleteTool toolName version)
    (wellFormed : WellFormed s.tools.rows) (greatest : NewestGreatest s.tools.rows) :
    NewestGreatest next ∧ ((∀ entry, call ≠ .upsertTool entry) → NoHeadDrop s.tools.rows next) ↔
      ∀ row, newRow env s call = some row → PlacedInOrder s.tools.rows row ∧
        ∀ toolName head, Promotes call toolName →
          flaggedHead s.tools.rows toolName = some head →
            precedence head.version ≤ precedence row.version := by
  cases after with
  | same nothing =>
      rw [nothing]
      exact iff_of_true ⟨greatest, fun _ => noHeadDrop_refl _⟩ (by simp)
  | reupsert _ taken =>
      rw [newRow_upsert_taken taken]
      refine iff_of_true ⟨greatest.map (reupsert_keepsPlace _), ?_⟩ (by simp)
      exact fun notUpsert => absurd rfl (notUpsert _)
  | delete => exact absurd rfl (notDelete _ _)
  | @insert _ row new fresh =>
      obtain ⟨made, _⟩ := makes_of_newRow new
      have form := (made.wellFormedRow wellFormed.each).stored s.tools
      have inOrder : NewestGreatest
          (s.tools.rows.map (makeRoom (stored s.tools row)) ++ [stored s.tools row]) ↔
            PlacedInOrder s.tools.rows row :=
        ⟨placedInOrder_of_insert fresh, fun placed => greatest.insert fresh placed⟩
      rw [inOrder, new]
      simp only [Option.some.injEq, forall_eq']
      constructor
      · rintro ⟨placed, noDrop⟩
        refine ⟨placed, fun toolName head promotes was => ?_⟩
        have notUpsert (entry : ToolEntry V) : call ≠ .upsertTool entry := by
          rintro rfl
          cases promotes
        -- A promotion makes its row the head of main.
        have drops := (noHeadDrop_insert_iff wellFormed form ?_).mp (noDrop notUpsert)
        · obtain ⟨rfl, main⟩ := made.on_of_promotes promotes
          exact drops main head was
        · exact (made.isHead_or_upsert).resolve_right fun ⟨entry, isUpsert⟩ =>
            notUpsert entry isUpsert
      · rintro ⟨placed, promoted⟩
        refine ⟨placed, fun notUpsert => ?_⟩
        have isHead := (made.isHead_or_upsert).resolve_right fun ⟨entry, isUpsert⟩ =>
          notUpsert entry isUpsert
        exact (noHeadDrop_insert_iff wellFormed form isHead).mpr fun main head was =>
          made.notBelow_head notUpsert wellFormed greatest promoted main was

theorem versionOrder_step_iff (s : StoreState V) (action : Env V × Call V)
    (wellFormed : WellFormed s.tools.rows) (bumps : AlwaysBumps s) :
    AlwaysBumps (step s action) ∧ KeepsHeadsUp s action ↔ KeepsVersionOrder s action := by
  have greatest := newestGreatest_of_alwaysBumps wellFormed bumps
  have after_iff : AlwaysBumps (step s action) ↔ NewestGreatest (step s action).tools.rows :=
    ⟨newestGreatest_of_alwaysBumps (step_wellFormed s action wellFormed),
      alwaysBumps_of_newestGreatest (step_wellFormed s action wellFormed)⟩
  rw [after_iff]
  obtain ⟨env, call⟩ := action
  by_cases isDelete : ∃ toolName version, call = .deleteTool toolName version
  · obtain ⟨toolName, version, rfl⟩ := isDelete
    have rows : (step s (env, .deleteTool toolName version)).tools.rows =
        s.tools.rows.filter fun row => !selects toolName version row :=
      deleteTool_tools_rows toolName version s
    rw [KeepsHeadsUp, rows, newestGreatest_delete_iff]
    constructor
    · rintro ⟨inOrder, _⟩
      refine ⟨fun row new => ?_, fun name row head promotes => ?_, ?_⟩
      · cases new
      · cases promotes
      · rintro _ _ ⟨rfl, rfl⟩
        exact inOrder
    · exact fun keeps => ⟨keeps.deleted toolName version rfl,
        fun _ => noHeadDrop_delete wellFormed _⟩
  · have notDelete (toolName version : String) : call ≠ .deleteTool toolName version :=
      fun isCall => isDelete ⟨toolName, version, isCall⟩
    obtain ⟨change, relabels, rows⟩ := marked_rows s call
    have after := (step_rows s (env, call)).versionOrder_iff notDelete
      (marked_wellFormed wellFormed call) (by rw [rows]; exact greatest.map relabels.toKeepsPlace)
    rw [rows] at after
    simp only [noHeadDrop_of_relabels relabels, placedInOrder_map relabels.toKeepsPlace,
      relabels.flaggedHead, Option.map_eq_some_iff] at after
    refine after.trans ⟨fun kept => ⟨?_, ?_, ?_⟩, fun keeps row new => ⟨?_, ?_⟩⟩
    · exact fun row new => (kept row new).1
    · intro toolName row head promotes new was
      have := (kept row new).2 toolName (change head) promotes ⟨head, was, rfl⟩
      rwa [relabels.version] at this
    · exact fun toolName version isCall => absurd isCall (notDelete toolName version)
    · exact keeps.placed row new
    · rintro toolName _ promotes ⟨head, was, rfl⟩
      rw [relabels.version]
      exact keeps.promoted toolName row head promotes new was

def fixAfterwards : Env Unit × Call Unit :=
  (atTime 3, .createVersion "tool" (plainDefinition "third") "" "patch" "main" "")

end YouMi.Mcp.ToolStore

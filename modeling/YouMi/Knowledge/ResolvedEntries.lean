import YouMi.Knowledge.GlobalMemory

/-!
# Entries that are written and marked one by one

What `add_experience` and calls of `mark_resolved` leave in the tables, told by what stands
under each id.
-/

namespace YouMi.Knowledge

open YouMi.Core YouMi.Library YouMi.Python

variable {V κ : Type}

/-- The ids of the entries are their keys, and no two entries share one. -/
structure KnowledgeBase.Keyed (base : KnowledgeBase V) : Prop where
  distinct : base.entries.keys.Nodup
  ids : ∀ entry ∈ base.entries, entry.2.entry.entryId = entry.1

theorem KnowledgeBase.Keyed.append {base after : KnowledgeBase V} (keyed : base.Keyed)
    {entryId : String} (fresh : entryId ∉ base.entries.keys) {row : KnowledgeRow V}
    (id : row.entry.entryId = entryId) (added : after.entries = base.entries ++ [(entryId, row)]) :
    after.Keyed where
  distinct := by
    rw [added, OrderedDict.keys, List.map_append]
    refine List.nodup_append.mpr ⟨keyed.distinct, List.nodup_singleton entryId, ?_⟩
    rintro key member other new rfl
    rw [List.mem_singleton.mp new] at member
    exact fresh member
  ids := by
    intro entry member
    rw [added] at member
    rcases List.mem_append.mp member with stood | new
    · exact keyed.ids entry stood
    · rw [List.mem_singleton.mp new]
      exact id

namespace GlobalMemory

/-- The entry that `add_experience` inserts; `none` where the client raises what is not caught. -/
def experience (s : GlobalMemory) (entry : KnowledgeEntry V) (vector : Except Fault V) :
    Option (KnowledgeEntry V) :=
  let entry := { entry with tenant := s.tenant, embedding := none }
  if s.embeds then
    match vector with
    | .ok vector => some { entry with embedding := some vector }
    | .error fault => if fault.isException then some entry else none
  else some entry

/-- `add_experience`: the entry that was written, `none` where it raises. -/
def addExperience (r : Retrieval V κ) (s : GlobalMemory) (base : KnowledgeBase V)
    (entry : KnowledgeEntry V) (vector : Except Fault V) :
    KnowledgeBase V × Option (KnowledgeEntry V) :=
  match s.experience entry vector with
  | none => (base, none)
  | some entry =>
      match s.inserted? r base entry with
      | none => (s.rollback base, none)
      | some after => (after, some entry)

/-- `mark_resolved` for one entry after another, each with the time it finds; how many there
were, `none` where one raises. -/
def markEach (s : GlobalMemory) (fixDescription : String) (now : String → Nat) :
    KnowledgeBase V → List (KnowledgeEntry V) → KnowledgeBase V × Option Nat
  | base, [] => (base, some 0)
  | base, entry :: rest =>
      let (base, answer) := s.markResolved base entry.entryId fixDescription (now entry.entryId)
      match answer.entry? with
      | none => (base, none)
      | some found =>
          let (base, count) := s.markEach fixDescription now base rest
          (base, count.map fun count => if found.isSome then count + 1 else count)

section Writing

variable {r : Retrieval V κ} {s : GlobalMemory} {base after : KnowledgeBase V}
  {entry written : KnowledgeEntry V} {vector : Except Fault V}

theorem addExperience_free (done : s.addExperience r base entry vector = (after, some written)) :
    ¬s.LockedOut after := by
  unfold addExperience at done
  split at done
  · cases done
  · split at done
    · cases done
    · rename_i inserted
      obtain ⟨rfl, -⟩ := Prod.mk.inj done
      unfold inserted? at inserted
      split at inserted
      · cases inserted
      · split at inserted
        · cases inserted
        · obtain ⟨row, -, rfl⟩ := Option.map_eq_some_iff.mp inserted
          rintro ⟨writer, ⟨⟩, -⟩

theorem experience_eq_some (ready : s.experience entry vector = some written) :
    written = { entry with tenant := s.tenant, embedding := written.embedding } := by
  unfold experience at ready
  dsimp only at ready
  split at ready
  · split at ready
    · rw [← Option.some.inj ready]
    · split at ready
      · rw [← Option.some.inj ready]
      · cases ready
  · rw [← Option.some.inj ready]

/-- A row under a new id is added for the instance's tenant. -/
theorem addExperience_fresh (fresh : entry.entryId ∉ base.entries.keys)
    (done : s.addExperience r base entry vector = (after, some written)) :
    written.entryId = entry.entryId ∧
      ∃ row, after.entries = base.entries ++ [(entry.entryId, row)] ∧
        row.entry.entryId = entry.entryId ∧ row.entry.tenant = s.tenant ∧
        row.entry.toolName = entry.toolName := by
  unfold addExperience at done
  split at done
  · cases done
  · rename_i ready
    split at done
    · cases done
    · rename_i inserted
      obtain ⟨rfl, same⟩ := Prod.mk.inj done
      rw [Option.some.inj same] at ready inserted
      have given := experience_eq_some ready
      unfold inserted? at inserted
      split at inserted
      · cases inserted
      · split at inserted
        · cases inserted
        · obtain ⟨row, wrote, rfl⟩ := Option.map_eq_some_iff.mp inserted
          have id : written.entryId = entry.entryId := by rw [given]
          have absent : base.entries.lookup written.entryId = none :=
            OrderedDict.lookup_eq_none_iff.mpr (id ▸ fresh)
          have contents := entry_of_writeVec wrote
          rw [absent, upserted] at contents
          refine ⟨id, row, ?_, ?_, ?_, ?_⟩
          · rw [id]
            exact if_neg fresh
          · rw [contents, ← id]
          · rw [contents, given]
          · rw [contents, given]

end Writing

section Marking

variable {s : GlobalMemory} {base after : KnowledgeBase V} {fixDescription : String}
  {now : String → Nat}

/-- The row with the mark, if it is the tenant's. -/
def markOwn (s : GlobalMemory) (fixDescription : String) (time : Nat) (row : KnowledgeRow V) :
    KnowledgeRow V :=
  if row.entry.tenant = s.tenant then marked fixDescription time row else row

theorem markOwn_of_tenant {row : KnowledgeRow V} (own : row.entry.tenant = s.tenant) (time : Nat) :
    s.markOwn fixDescription time row = marked fixDescription time row := if_pos own

theorem markOwn_markOwn (time : Nat) (row : KnowledgeRow V) :
    s.markOwn fixDescription time (s.markOwn fixDescription time row) =
      s.markOwn fixDescription time row := by
  by_cases own : row.entry.tenant = s.tenant
  · have still : (marked fixDescription time row).entry.tenant = s.tenant := own
    rw [markOwn_of_tenant own, markOwn_of_tenant still]
    rfl
  · unfold markOwn
    rw [if_neg own, if_neg own]

@[simp]
theorem toolName_markOwn (time : Nat) (row : KnowledgeRow V) :
    (s.markOwn fixDescription time row).entry.toolName = row.entry.toolName := by
  unfold markOwn
  split <;> rfl

@[simp]
theorem tenant_markOwn (time : Nat) (row : KnowledgeRow V) :
    (s.markOwn fixDescription time row).entry.tenant = row.entry.tenant := by
  unfold markOwn
  split <;> rfl

theorem entries_markResolved {entryId : String} {time : Nat} {answer : KnowledgeAnswer V}
    {found : Option (KnowledgeEntry V)} {row : KnowledgeRow V}
    (isRow : s.rowOf base entryId = some row)
    (done : s.markResolved base entryId fixDescription time = (after, answer))
    (answered : answer.entry? = some found) :
    after.entries = base.entries.assign entryId (marked fixDescription time row) := by
  unfold markResolved at done
  rw [isRow] at done
  split at done
  · obtain ⟨-, rfl⟩ := Prod.mk.inj done
    cases answered
  · obtain ⟨rfl, -⟩ := Prod.mk.inj done
    rfl

theorem lookup_markResolved {entryId : String} {time : Nat} {answer : KnowledgeAnswer V}
    {found : Option (KnowledgeEntry V)}
    (done : s.markResolved base entryId fixDescription time = (after, answer))
    (answered : answer.entry? = some found) (key : String) :
    after.entries.lookup key =
      if key = entryId then (base.entries.lookup key).map (s.markOwn fixDescription time)
      else base.entries.lookup key := by
  unfold markResolved at done
  split at done
  · obtain ⟨-, rfl⟩ := Prod.mk.inj done
    cases answered
  · split at done
    · rename_i none
      obtain ⟨rfl, -⟩ := Prod.mk.inj done
      split
      · rename_i same
        rw [same]
        cases stands : base.entries.lookup entryId with
        | none => rfl
        | some row =>
            have other : ¬row.entry.tenant = s.tenant := by
              intro own
              unfold rowOf at none
              rw [stands, Option.filter_some, if_pos (decide_eq_true own)] at none
              cases none
            exact congrArg some (if_neg other).symm
      · rfl
    · rename_i row isRow
      obtain ⟨rfl, -⟩ := Prod.mk.inj done
      obtain ⟨stands, own⟩ := Option.filter_eq_some_iff.mp isRow
      rw [OrderedDict.lookup_assign]
      split
      · rename_i same
        rw [same, stands, Option.map_some, markOwn_of_tenant (of_decide_eq_true own)]
      · rfl

/-- A connection that nothing locks out is left so, and gets an answer. -/
theorem markResolved_free (free : ¬s.LockedOut base) (entryId : String) (time : Nat) :
    ∃ after answer found, s.markResolved base entryId fixDescription time = (after, answer) ∧
      answer.entry? = some found ∧ ¬s.LockedOut after := by
  unfold markResolved
  rw [if_neg free]
  split
  · refine ⟨_, _, none, rfl, rfl, ?_⟩
    rintro ⟨writer, writes, other⟩
    exact other (Option.some.inj writes).symm
  · exact ⟨_, _, _, rfl, rfl, nofun⟩

theorem markEach_free (free : ¬s.LockedOut base) (entries : List (KnowledgeEntry V)) :
    ∃ after count, s.markEach fixDescription now base entries = (after, some count) := by
  induction entries generalizing base with
  | nil => exact ⟨base, 0, rfl⟩
  | cons entry rest ih =>
      obtain ⟨middle, answer, found, called, answered, free⟩ :=
        markResolved_free free entry.entryId
          (now entry.entryId)
      obtain ⟨after, count, marked⟩ := ih free
      unfold markEach
      rw [called]
      dsimp only
      rw [answered, marked]
      exact ⟨after, _, rfl⟩

theorem lookup_markEach {entries : List (KnowledgeEntry V)} {count : Nat}
    (done : s.markEach fixDescription now base entries = (after, some count)) (key : String) :
    after.entries.lookup key =
      if key ∈ entries.map KnowledgeEntry.entryId then
        (base.entries.lookup key).map (s.markOwn fixDescription (now key))
      else base.entries.lookup key := by
  induction entries generalizing base count with
  | nil =>
      obtain ⟨rfl, -⟩ := Prod.mk.inj done
      simp
  | cons entry rest ih =>
      obtain ⟨middle, answer, called⟩ : ∃ middle answer, s.markResolved base entry.entryId
          fixDescription (now entry.entryId) = (middle, answer) := ⟨_, _, rfl⟩
      unfold markEach at done
      rw [called] at done
      dsimp only at done
      split at done
      · cases done
      · rename_i found answered
        obtain ⟨rfl, counted⟩ := Prod.mk.inj done
        obtain ⟨later, isLater, -⟩ := Option.map_eq_some_iff.mp counted
        rw [ih (Prod.ext rfl isLater), lookup_markResolved called answered, List.map_cons]
        by_cases first : key = entry.entryId
        · rw [if_pos first, if_pos (List.mem_cons.mpr (.inl first)), ← first]
          split
          · rw [Option.map_map]
            congr 1
            funext row
            exact markOwn_markOwn _ row
          · rfl
        · rw [if_neg first]
          have same : key ∈ entry.entryId :: rest.map KnowledgeEntry.entryId ↔
              key ∈ rest.map KnowledgeEntry.entryId :=
            List.mem_cons.trans (or_iff_right first)
          simp only [same]

end Marking

/-! ## Ids -/

section Ids

variable {r : Retrieval V κ} {s : GlobalMemory} {base after : KnowledgeBase V}

theorem keyed_assign (keyed : base.Keyed) {entryId : String} {row : KnowledgeRow V}
    (id : row.entry.entryId = entryId) (openWriter : Option Nat) :
    KnowledgeBase.Keyed { entries := base.entries.assign entryId row, openWriter } where
  distinct := OrderedDict.nodup_keys_assign keyed.distinct
  ids := by
    intro entry member
    rcases OrderedDict.mem_assign member with rfl | stood
    · exact id
    · exact keyed.ids entry stood

theorem entryId_upserted (keyed : base.Keyed) (entry : KnowledgeEntry V) :
    (upserted entry (base.entries.lookup entry.entryId)).entry.entryId = entry.entryId := by
  cases stands : base.entries.lookup entry.entryId with
  | none => rfl
  | some old => exact keyed.ids (entry.entryId, old) (OrderedDict.mem_of_lookup stands)

theorem keyed_inserted (keyed : base.Keyed) {entry : KnowledgeEntry V}
    (done : s.inserted? r base entry = some after) : after.Keyed := by
  unfold inserted? at done
  split at done
  · cases done
  · split at done
    · cases done
    · obtain ⟨row, wrote, rfl⟩ := Option.map_eq_some_iff.mp done
      refine keyed_assign keyed ?_ none
      rw [entry_of_writeVec wrote]
      exact entryId_upserted keyed _

theorem keyed_insertEntries (keyed : base.Keyed) (entries : List (KnowledgeEntry V)) :
    (s.insertEntries r base entries).1.Keyed := by
  induction entries generalizing base with
  | nil => exact keyed
  | cons entry rest ih =>
      unfold insertEntries
      split
      · unfold rollback
        split
        · exact ⟨keyed.distinct, keyed.ids⟩
        · exact keyed
      · rename_i done
        exact ih (keyed_inserted keyed done)

/-- Every operation keeps the ids and the keys alike. -/
theorem keyed_call [LinearOrder κ] (keyed : base.Keyed) (operation : KnowledgeOperation V) :
    (s.call r base operation).1.Keyed := by
  cases operation with
  | batchAdd entries vectors =>
      unfold call batchAdd
      dsimp only
      split
      · exact keyed
      · exact keyed_insertEntries keyed _
  | markResolved entryId fixDescription now =>
      unfold call markResolved
      dsimp only
      split
      · exact keyed
      · split
        · exact ⟨keyed.distinct, keyed.ids⟩
        · rename_i row isRow
          have stands := OrderedDict.mem_of_lookup (Option.filter_eq_some_iff.mp isRow).1
          have id : (marked fixDescription now row).entry.entryId = entryId :=
            keyed.ids (entryId, row) stands
          exact keyed_assign keyed id none
  | getEntry | listEntries | search => exact keyed

end Ids

end GlobalMemory

end YouMi.Knowledge

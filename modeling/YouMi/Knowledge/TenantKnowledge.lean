import YouMi.Library.Purging
import YouMi.Knowledge.GlobalMemory

/-!
# Knowledge of two tenants in one base

Two instances for different tenants work on one base.  What one reads does not depend on
the other as long as each keeps to its own entry ids, the other stores nothing for the
tenant and leaves no transaction open that locks it out, and the nearest neighbours of the
whole index hold as much for the tenant as those of its own part.
-/

namespace YouMi.Knowledge

open YouMi.Core YouMi.Library YouMi.Python

variable {V κ : Type}

/-! ## Bases that are alike for a tenant -/

/-- A row under an id of the tenant as it is, another as it was at the start. -/
def KnowledgeBase.rowWithout (start : KnowledgeBase V) (mine : String → Bool) (entryId : String)
    (row : KnowledgeRow V) : KnowledgeRow V :=
  if mine entryId then row else (start.entries.lookup entryId).getD row

/-- The ids of the tenant, and those that were there at the start. -/
def KnowledgeBase.remains (start : KnowledgeBase V) (mine : String → Bool) (entryId : String) :
    Bool := mine entryId || decide (entryId ∈ start.entries.keys)

/-- The base without what others have written since the start. -/
def KnowledgeBase.without (start : KnowledgeBase V) (mine : String → Bool)
    (base : KnowledgeBase V) : KnowledgeBase V :=
  { base with entries :=
      (base.entries.filter fun entry => start.remains mine entry.1).map fun entry =>
        (entry.1, start.rowWithout mine entry.1 entry.2) }

/-- What another tenant can change of its row by a mark is left out. -/
def KnowledgeRow.veil (tenant : String) (row : KnowledgeRow V) : KnowledgeRow V :=
  if row.entry.tenant = tenant then row
  else { row with entry := { row.entry with resolved := false, resolution := "", updatedAt := 0 } }

def veiled (tenant : String) (entries : OrderedDict String (KnowledgeRow V)) :
    OrderedDict String (KnowledgeRow V) :=
  entries.map fun entry => (entry.1, entry.2.veil tenant)

/-- The entry is the tenant's. -/
def isOf (tenant : String) (entry : String × KnowledgeRow V) : Bool :=
  entry.2.entry.tenant = tenant

/-- Only under the tenant's ids has a base rows of the tenant. -/
def KnowledgeBase.Keeps (mine : String → Bool) (tenant : String) (base : KnowledgeBase V) :
    Prop :=
  ∀ entry ∈ base.entries, mine entry.1 = false → entry.2.entry.tenant ≠ tenant

/-- The second base is the first without what others have written since the start. -/
structure Alike (start : KnowledgeBase V) (mine : String → Bool) (own : GlobalMemory)
    (full purged : KnowledgeBase V) : Prop where
  rows : veiled own.tenant (start.without mine full).entries = veiled own.tenant purged.entries
  started : start.Keeps mine own.tenant
  foreign : full.Keeps mine own.tenant
  distinct : full.entries.keys.Nodup
  kept : start.entries.keys ⊆ full.entries.keys
  free : ¬own.LockedOut purged

namespace KnowledgeRow

variable {tenant : String} {row : KnowledgeRow V}

theorem veil_of_own (own : row.entry.tenant = tenant) : row.veil tenant = row := if_pos own

@[simp]
theorem tenant_veil : (row.veil tenant).entry.tenant = row.entry.tenant := by
  unfold veil
  split <;> rfl

@[simp]
theorem indexed_veil : (row.veil tenant).indexed = row.indexed := by
  unfold veil
  split <;> rfl

/-- What an insertion leaves is seen by what is seen of the row before. -/
theorem veil_upserted (entry : KnowledgeEntry V) {first second : Option (KnowledgeRow V)}
    (same : first.map (veil tenant) = second.map (veil tenant)) :
    GlobalMemory.upserted entry first = GlobalMemory.upserted entry second := by
  have seen (old : KnowledgeRow V) : GlobalMemory.upserted entry (some (old.veil tenant)) =
      GlobalMemory.upserted entry (some old) := by
    unfold veil
    split <;> rfl
  cases first with
  | none =>
      cases second with
      | none => rfl
      | some other => cases same
  | some old =>
      cases second with
      | none => cases same
      | some other =>
          rw [← seen old, ← seen other]
          exact congrArg _ same

theorem veil_marked (fixDescription : String) (now : Nat) (other : row.entry.tenant ≠ tenant) :
    (GlobalMemory.marked fixDescription now row).veil tenant = row.veil tenant := by
  unfold veil
  rw [if_neg other]
  exact if_neg other

end KnowledgeRow

namespace Alike

variable {start : KnowledgeBase V} {mine : String → Bool} {own : GlobalMemory}
  {full purged : KnowledgeBase V}

/-! ## What is seen of a base -/

/-- What the tenant has to do with is chosen before or after the rows are changed. -/
theorem filter_changed {α : Type} {entries : List α} {keep wanted : α → Bool} {change : α → α}
    (agree : ∀ entry ∈ entries, wanted entry = true → keep entry = true ∧ change entry = entry)
    (stays : ∀ entry ∈ entries, wanted entry = false → keep entry = true →
      wanted (change entry) = false) :
    ((entries.filter keep).map change).filter wanted = entries.filter wanted := by
  induction entries with
  | nil => rfl
  | cons entry rest ih =>
      have later := ih (fun other member => agree other (List.mem_cons_of_mem _ member))
        (fun other member => stays other (List.mem_cons_of_mem _ member))
      cases here : wanted entry with
      | true =>
          obtain ⟨isKept, same⟩ := agree entry List.mem_cons_self here
          rw [List.filter_cons_of_pos isKept, List.map_cons, same, List.filter_cons_of_pos here,
            List.filter_cons_of_pos here, later]
      | false =>
          rw [List.filter_cons_of_neg (p := wanted) (by simp [here]), ← later]
          cases isKept : keep entry with
          | true =>
              rw [List.filter_cons_of_pos isKept, List.map_cons, List.filter_cons_of_neg]
              simp [stays entry List.mem_cons_self here isKept]
          | false => rw [List.filter_cons_of_neg (by simp [isKept])]

theorem filter_veiled (entries : OrderedDict String (KnowledgeRow V)) (tenant : String) :
    (veiled tenant entries).filter (isOf tenant) = entries.filter (isOf tenant) := by
  have all : veiled tenant entries = (entries.filter fun _ => true).map
      fun entry => (entry.1, entry.2.veil tenant) := by simp [veiled]
  rw [all]
  refine filter_changed (fun entry _ isOwn => ⟨rfl, ?_⟩) fun entry _ other _ => ?_
  · rw [KnowledgeRow.veil_of_own (of_decide_eq_true isOwn)]
  · unfold isOf at other ⊢
    rwa [KnowledgeRow.tenant_veil]

/-- A row under no id of the tenant was not the tenant's at the start. -/
theorem tenant_rowWithout (started : start.Keeps mine own.tenant) {entryId : String}
    {row : KnowledgeRow V} (unknown : mine entryId = false)
    (foreign : row.entry.tenant ≠ own.tenant) :
    (start.rowWithout mine entryId row).entry.tenant ≠ own.tenant := by
  unfold KnowledgeBase.rowWithout
  rw [if_neg (by simp [unknown])]
  cases before : start.entries.lookup entryId with
  | none => exact foreign
  | some old => exact started _ (OrderedDict.mem_of_lookup before) unknown

theorem filter_without (started : start.Keeps mine own.tenant) {base : KnowledgeBase V}
    (foreign : base.Keeps mine own.tenant) :
    (start.without mine base).entries.filter (isOf own.tenant) =
      base.entries.filter (isOf own.tenant) := by
  refine filter_changed (fun entry member isOwn => ?_) fun entry member other _ => ?_
  · have known : mine entry.1 = true := by
      by_contra unknown
      exact foreign entry member (by simpa using unknown) (of_decide_eq_true isOwn)
    refine ⟨by simp [KnowledgeBase.remains, known], ?_⟩
    rw [KnowledgeBase.rowWithout, if_pos known]
  · cases known : mine entry.1 with
    | true =>
        unfold KnowledgeBase.rowWithout
        rw [if_pos known]
        exact other
    | false =>
        exact decide_eq_false (tenant_rowWithout started known (foreign entry member known))

theorem keys_veiled (entries : OrderedDict String (KnowledgeRow V)) (tenant : String) :
    OrderedDict.keys (veiled tenant entries) = entries.keys := by
  simp [OrderedDict.keys, veiled]

theorem distinct_without {base : KnowledgeBase V} (distinct : base.entries.keys.Nodup) :
    (start.without mine base).entries.keys.Nodup := by
  have keys_eq : (start.without mine base).entries.keys = OrderedDict.keys
      (base.entries.filter fun entry => start.remains mine entry.1) := by
    simp [KnowledgeBase.without, OrderedDict.keys]
  rw [keys_eq]
  exact distinct.sublist (List.filter_sublist.map Prod.fst)

theorem distinct_purged (alike : Alike start mine own full purged) :
    purged.entries.keys.Nodup := by
  rw [← keys_veiled purged.entries own.tenant, ← alike.rows, keys_veiled]
  exact distinct_without alike.distinct

/-- The rows of the tenant are the same. -/
theorem filter_eq (alike : Alike start mine own full purged) :
    full.entries.filter (isOf own.tenant) = purged.entries.filter (isOf own.tenant) := by
  rw [← filter_veiled purged.entries, ← alike.rows, filter_veiled,
    filter_without alike.started alike.foreign]

theorem rowOf_eq (alike : Alike start mine own full purged) (entryId : String) :
    own.rowOf full entryId = own.rowOf purged entryId := by
  have byFilter {base : KnowledgeBase V} (distinct : base.entries.keys.Nodup) :
      own.rowOf base entryId = (base.entries.filter (isOf own.tenant)).lookup entryId := by
    rw [OrderedDict.lookup_filter distinct]
    rfl
  rw [byFilter alike.distinct, byFilter alike.distinct_purged, alike.filter_eq]

theorem rows_eq (alike : Alike start mine own full purged) :
    own.rows full = own.rows purged := by
  unfold GlobalMemory.rows
  rw [List.filter_map, List.filter_map]
  exact congrArg _ alike.filter_eq

/-- A row of the tenant has an id of its own. -/
theorem mine_of_rowOf (alike : Alike start mine own full purged) {entryId : String}
    {row : KnowledgeRow V} (found : own.rowOf full entryId = some row) : mine entryId = true := by
  obtain ⟨stored, isOwn⟩ := Option.filter_eq_some_iff.mp found
  by_contra other
  exact alike.foreign _ (OrderedDict.mem_of_lookup stored) (by simpa using other)
    (of_decide_eq_true isOwn)

theorem lookup_without {base : KnowledgeBase V} (distinct : base.entries.keys.Nodup)
    {entryId : String} (remains : start.remains mine entryId = true) :
    (start.without mine base).entries.lookup entryId =
      (base.entries.lookup entryId).map (start.rowWithout mine entryId) := by
  unfold KnowledgeBase.without
  dsimp only
  rw [OrderedDict.lookup_map_entries, OrderedDict.lookup_filter distinct]
  cases base.entries.lookup entryId with
  | none => rfl
  | some row => simp [Option.filter, remains]

theorem remains_of_mine {entryId : String} (known : mine entryId = true) :
    start.remains mine entryId = true := by
  unfold KnowledgeBase.remains
  rw [known]
  rfl

theorem rowWithout_of_mine {entryId : String} (known : mine entryId = true)
    (row : KnowledgeRow V) : start.rowWithout mine entryId row = row := if_pos known

theorem lookup_veiled (alike : Alike start mine own full purged) {entryId : String}
    (known : mine entryId = true) :
    (full.entries.lookup entryId).map (KnowledgeRow.veil own.tenant) =
      (purged.entries.lookup entryId).map (KnowledgeRow.veil own.tenant) := by
  have same := congrArg (List.lookup entryId) alike.rows
  unfold veiled at same
  rw [OrderedDict.lookup_map_values, OrderedDict.lookup_map_values,
    lookup_without alike.distinct (remains_of_mine known), Option.map_map] at same
  rw [← same]
  refine congrArg (fun change => (full.entries.lookup entryId).map change) (funext fun row => ?_)
  exact (congrArg _ (rowWithout_of_mine known row)).symm

/-! ## Writes -/

section Assign

variable {base : KnowledgeBase V} {entryId : String} {row old : KnowledgeRow V}
  (openWriter : Option Nat)

theorem without_assign (remains : start.remains mine entryId = true) :
    (start.without mine ⟨base.entries.assign entryId row, openWriter⟩).entries =
      OrderedDict.assign (start.without mine base).entries entryId
        (start.rowWithout mine entryId row) := by
  unfold KnowledgeBase.without
  dsimp only
  rw [OrderedDict.filter_assign_of_kept remains, OrderedDict.map_assign]

theorem without_assign_other (gone : start.remains mine entryId = false) :
    (start.without mine ⟨base.entries.assign entryId row, openWriter⟩).entries =
      (start.without mine base).entries := by
  unfold KnowledgeBase.without
  dsimp only
  rw [OrderedDict.filter_assign_of_other gone]

theorem veiled_assign (tenant : String) (entries : OrderedDict String (KnowledgeRow V)) :
    veiled tenant (entries.assign entryId row) =
      OrderedDict.assign (veiled tenant entries) entryId (row.veil tenant) :=
  OrderedDict.map_assign fun _ => KnowledgeRow.veil tenant

/-- A row that was there changes in what the tenant does not see. -/
theorem veiled_assign_unseen {tenant : String} (distinct : base.entries.keys.Nodup)
    (remains : start.remains mine entryId = true) (found : base.entries.lookup entryId = some old)
    (unseen : (start.rowWithout mine entryId row).veil tenant =
      (start.rowWithout mine entryId old).veil tenant) :
    veiled tenant (start.without mine ⟨base.entries.assign entryId row, openWriter⟩).entries =
      veiled tenant (start.without mine base).entries := by
  rw [without_assign _ remains, veiled_assign, OrderedDict.assign_of_lookup]
  · rw [keys_veiled]
    exact distinct_without distinct
  · unfold veiled
    rw [OrderedDict.lookup_map_values, lookup_without distinct remains, found, unseen]
    rfl

theorem keys_subset_assign {keys : List String} (kept : keys ⊆ base.entries.keys) :
    keys ⊆ (base.entries.assign entryId row).keys :=
  fun _ member => OrderedDict.mem_keys_assign.mpr (.inr (kept member))

/-- Both bases get a row under an id of the tenant. -/
theorem assign_own (alike : Alike start mine own full purged) (row : KnowledgeRow V)
    (known : mine entryId = true) :
    Alike start mine own { entries := full.entries.assign entryId row }
      { entries := purged.entries.assign entryId row } where
  rows := by
    rw [without_assign none (remains_of_mine known), rowWithout_of_mine known, veiled_assign,
      veiled_assign, alike.rows]
  started := alike.started
  foreign := fun entry member other => by
    rcases OrderedDict.mem_assign member with rfl | before
    · rw [known] at other
      cases other
    · exact alike.foreign entry before other
  distinct := OrderedDict.nodup_keys_assign alike.distinct
  kept := keys_subset_assign alike.kept
  free := fun ⟨_, writing, _⟩ => nomatch writing

/-- The first base gets a row of another tenant under an id that is not the tenant's. -/
theorem assign_other (alike : Alike start mine own full purged) (openWriter : Option Nat)
    (unknown : mine entryId = false) (other : row.entry.tenant ≠ own.tenant) :
    Alike start mine own { entries := full.entries.assign entryId row, openWriter := openWriter }
      purged where
  rows := by
    rw [← alike.rows]
    cases remains : start.remains mine entryId with
    | false => rw [without_assign_other _ remains]
    | true =>
        -- The row was there at the start and is seen as it was then.
        have isKey : entryId ∈ start.entries.keys := by
          simpa [KnowledgeBase.remains, unknown] using remains
        obtain ⟨first, before⟩ :=
          Option.isSome_iff_exists.mp (OrderedDict.lookup_isSome_iff.mpr isKey)
        obtain ⟨now, found⟩ :=
          Option.isSome_iff_exists.mp (OrderedDict.lookup_isSome_iff.mpr (alike.kept isKey))
        have asBefore (row : KnowledgeRow V) : start.rowWithout mine entryId row = first := by
          unfold KnowledgeBase.rowWithout
          rw [if_neg (by simp [unknown]), before]
          rfl
        exact veiled_assign_unseen openWriter alike.distinct remains found
          (by rw [asBefore, asBefore])
  started := alike.started
  foreign := fun entry member unknown => by
    rcases OrderedDict.mem_assign member with rfl | before
    · exact other
    · exact alike.foreign entry before unknown
  distinct := OrderedDict.nodup_keys_assign alike.distinct
  kept := keys_subset_assign alike.kept
  free := alike.free

/-- A row of the first base changes in what the tenant does not see. -/
theorem assign_unseen (alike : Alike start mine own full purged) (openWriter : Option Nat)
    (found : full.entries.lookup entryId = some old)
    (unseen : row.veil own.tenant = old.veil own.tenant) :
    Alike start mine own { entries := full.entries.assign entryId row, openWriter := openWriter }
      purged := by
  have tenants : row.entry.tenant = old.entry.tenant := by
    have same := congrArg (fun row => row.entry.tenant) unseen
    rwa [KnowledgeRow.tenant_veil, KnowledgeRow.tenant_veil] at same
  cases known : mine entryId with
  | false =>
      refine alike.assign_other openWriter known ?_
      rw [tenants]
      exact alike.foreign _ (OrderedDict.mem_of_lookup found) known
  | true =>
      refine ⟨?_, alike.started, fun entry member unknown => ?_,
        OrderedDict.nodup_keys_assign alike.distinct, keys_subset_assign alike.kept, alike.free⟩
      · rw [← alike.rows]
        refine veiled_assign_unseen openWriter alike.distinct (remains_of_mine known) found ?_
        rw [rowWithout_of_mine known, rowWithout_of_mine known, unseen]
      · rcases OrderedDict.mem_assign member with rfl | before
        · rw [known] at unknown
          cases unknown
        · exact alike.foreign entry before unknown

/-- Of the first base only the rows matter. -/
theorem with_openWriter (alike : Alike start mine own full purged) (openWriter : Option Nat) :
    Alike start mine own { full with openWriter := openWriter } purged :=
  ⟨alike.rows, alike.started, alike.foreign, alike.distinct, alike.kept, alike.free⟩

end Assign

/-- Both bases take an entry of the tenant in, or neither does. -/
theorem inserted_own (alike : Alike start mine own full purged) (r : Retrieval V κ)
    {entry : KnowledgeEntry V} (known : mine entry.entryId = true)
    (unlocked : ¬own.LockedOut full) :
    (own.inserted? r full entry = none ∧ own.inserted? r purged entry = none) ∨
      ∃ row, own.inserted? r full entry =
          some { entries := full.entries.assign entry.entryId row } ∧
        own.inserted? r purged entry =
          some { entries := purged.entries.assign entry.entryId row } := by
  unfold GlobalMemory.inserted?
  cases entry.metadata.dumps? with
  | none => exact .inl ⟨rfl, rfl⟩
  | some metadata =>
      dsimp only
      rw [if_neg unlocked, if_neg alike.free,
        KnowledgeRow.veil_upserted _ (alike.lookup_veiled known)]
      cases own.writeVec r entry.embedding
          (GlobalMemory.upserted { entry with metadata := metadata }
            (purged.entries.lookup entry.entryId)) with
      | none => exact .inl ⟨rfl, rfl⟩
      | some row => exact .inr ⟨row, rfl, rfl⟩

theorem rollback (alike : Alike start mine own full purged) :
    Alike start mine own (own.rollback full) (own.rollback purged) := by
  have free : ¬own.LockedOut (own.rollback purged) := by
    unfold GlobalMemory.rollback
    split
    · exact fun ⟨_, writing, _⟩ => nomatch writing
    · exact alike.free
  have rows (base : KnowledgeBase V) : (own.rollback base).entries = base.entries := by
    unfold GlobalMemory.rollback
    split <;> rfl
  have fullRows : own.rollback full = ⟨full.entries, (own.rollback full).openWriter⟩ := by
    rw [← rows full]
  rw [fullRows]
  refine ⟨?_, alike.started, alike.foreign, alike.distinct, alike.kept, free⟩
  rw [rows]
  exact alike.rows

theorem insertEntries_own (r : Retrieval V κ) {entries : List (KnowledgeEntry V)}
    (alike : Alike start mine own full purged)
    (each : ∀ entry ∈ entries, mine entry.entryId = true ∧ ¬own.LockedOut full) :
    (own.insertEntries r full entries).2 = (own.insertEntries r purged entries).2 ∧
      Alike start mine own (own.insertEntries r full entries).1
        (own.insertEntries r purged entries).1 := by
  induction entries generalizing full purged with
  | nil => exact ⟨rfl, alike⟩
  | cons entry rest ih =>
      obtain ⟨known, unlocked⟩ := each entry List.mem_cons_self
      unfold GlobalMemory.insertEntries
      rcases alike.inserted_own r known unlocked with ⟨first, second⟩ | ⟨row, first, second⟩
      · rw [first, second]
        exact ⟨rfl, alike.rollback⟩
      · rw [first, second]
        refine ih (alike.assign_own row known) fun later member => ⟨?_, ?_⟩
        · exact (each later (List.mem_cons_of_mem _ member)).1
        · exact fun ⟨_, writing, _⟩ => nomatch writing

theorem inserted_other (alike : Alike start mine own full purged) (r : Retrieval V κ)
    {other : GlobalMemory} {entry : KnowledgeEntry V} {after : KnowledgeBase V}
    (unknown : mine entry.entryId = false) (foreign : entry.tenant ≠ own.tenant)
    (done : other.inserted? r full entry = some after) : Alike start mine own after purged := by
  unfold GlobalMemory.inserted? at done
  cases written : entry.metadata.dumps? with
  | none =>
      rw [written] at done
      cases done
  | some metadata =>
      rw [written] at done
      dsimp only at done
      split at done
      · cases done
      · obtain ⟨row, vec, rfl⟩ := Option.map_eq_some_iff.mp done
        refine alike.assign_other none unknown ?_
        rw [GlobalMemory.entry_of_writeVec vec]
        cases stored : full.entries.lookup entry.entryId with
        | none => exact foreign
        | some old => exact alike.foreign _ (OrderedDict.mem_of_lookup stored) unknown

theorem insertEntries_other (r : Retrieval V κ) {other : GlobalMemory}
    {entries : List (KnowledgeEntry V)} (alike : Alike start mine own full purged)
    (each : ∀ entry ∈ entries, mine entry.entryId = false ∧ entry.tenant ≠ own.tenant) :
    Alike start mine own (other.insertEntries r full entries).1 purged := by
  induction entries generalizing full with
  | nil => exact alike
  | cons entry rest ih =>
      obtain ⟨unknown, foreign⟩ := each entry List.mem_cons_self
      unfold GlobalMemory.insertEntries
      cases done : other.inserted? r full entry with
      | none =>
          change Alike start mine own (other.rollback full) purged
          unfold GlobalMemory.rollback
          split
          · exact alike.with_openWriter none
          · exact alike
      | some after =>
          exact ih (alike.inserted_other r unknown foreign done)
            fun later member => each later (List.mem_cons_of_mem _ member)

theorem markResolved_own (alike : Alike start mine own full purged)
    (entryId fixDescription : String) (now : Nat) (unlocked : ¬own.LockedOut full) :
    (own.markResolved full entryId fixDescription now).2 =
        (own.markResolved purged entryId fixDescription now).2 ∧
      Alike start mine own (own.markResolved full entryId fixDescription now).1
        (own.markResolved purged entryId fixDescription now).1 := by
  unfold GlobalMemory.markResolved
  rw [if_neg unlocked, if_neg alike.free, ← alike.rowOf_eq]
  cases found : own.rowOf full entryId with
  | none =>
      refine ⟨rfl, alike.rows, alike.started, alike.foreign, alike.distinct, alike.kept, ?_⟩
      rintro ⟨writer, writing, other⟩
      exact other (Option.some.inj writing).symm
  | some row =>
      have after := alike.assign_own (GlobalMemory.marked fixDescription now row)
        (alike.mine_of_rowOf found)
      refine ⟨?_, after⟩
      dsimp only
      unfold GlobalMemory.getEntry
      rw [after.rowOf_eq]

theorem markResolved_other (alike : Alike start mine own full purged) {other : GlobalMemory}
    (different : other.tenant ≠ own.tenant) (entryId fixDescription : String) (now : Nat) :
    Alike start mine own (other.markResolved full entryId fixDescription now).1 purged := by
  unfold GlobalMemory.markResolved
  split
  · exact alike
  · split
    · exact alike.with_openWriter _
    · rename_i row found
      obtain ⟨stored, isOther⟩ := Option.filter_eq_some_iff.mp found
      refine alike.assign_unseen none stored (KnowledgeRow.veil_marked _ _ ?_)
      rw [of_decide_eq_true isOther]
      exact different

/-! ## Reads -/

theorem selected_eq (alike : Alike start mine own full purged) (r : Retrieval V κ)
    (toolName : Option String) (category : Option KnowledgeCategory) (unresolvedOnly : Bool)
    (limit : Int) : own.selected r full toolName category unresolvedOnly limit =
      own.selected r purged toolName category unresolvedOnly limit := by
  unfold GlobalMemory.selected
  rw [alike.rows_eq]

section Neighbours

variable {r : Retrieval V κ} {toolName : Option String} {queryVec : V}

/-- A neighbour with its row veiled. -/
def veilItem (tenant : String) (item : (String × KnowledgeRow V) × κ) :
    (String × KnowledgeRow V) × κ := ((item.1.1, item.1.2.veil tenant), item.2)

theorem map_distances (base : KnowledgeBase V) (tenant : String) :
    (GlobalMemory.distances r base queryVec).map (veilItem tenant) =
      GlobalMemory.distances r ⟨veiled tenant base.entries, none⟩ queryVec := by
  unfold GlobalMemory.distances veiled
  rw [List.map_filterMap, List.filterMap_map]
  refine List.filterMap_congr fun entry _ => ?_
  dsimp only [Function.comp_apply]
  rw [KnowledgeRow.indexed_veil, Option.map_map]
  rfl

/-- Of the tenant's part of the index nothing is left out. -/
theorem filter_distances_without (base : KnowledgeBase V) :
    (GlobalMemory.distances r (start.without mine base) queryVec).filter
        (fun item => mine item.1.1) =
      (GlobalMemory.distances r base queryVec).filter fun item => mine item.1.1 := by
  unfold GlobalMemory.distances KnowledgeBase.without
  dsimp only
  rw [List.filter_filterMap, List.filter_filterMap, List.filterMap_map, List.filterMap_filter]
  refine List.filterMap_congr fun entry _ => ?_
  cases known : mine entry.1 with
  | true =>
      simp only [Function.comp_apply, KnowledgeBase.remains, known, Bool.true_or, if_true,
        rowWithout_of_mine known]
  | false =>
      have none {row : KnowledgeRow V} : Option.filter (fun item => mine item.1.1)
          (row.indexed.map fun vec =>
            ((entry.1, row), r.distance (r.normalize queryVec) vec)) = none := by
        cases row.indexed with
        | none => rfl
        | some vec => simp [Option.filter, known]
      simp only [Function.comp_apply]
      split
      · exact (none.trans none.symm)
      · exact none.symm

variable [LinearOrder κ]

/-- What is accepted is the tenant's, of which nothing is veiled. -/
theorem neighbours_veiled (fetchK : Nat) (found : List ((String × KnowledgeRow V) × κ)) :
    own.neighbours r toolName fetchK (found.map (veilItem own.tenant)) =
      own.neighbours r toolName fetchK found := by
  have nearest_map : GlobalMemory.nearest (found.map (veilItem own.tenant)) =
      (GlobalMemory.nearest found).map (veilItem own.tenant) :=
    (map_byScore (veilItem own.tenant) found fun _ => rfl).symm
  unfold GlobalMemory.neighbours
  rw [nearest_map, ← List.map_take]
  generalize (GlobalMemory.nearest found).take fetchK = first
  have all : first.map (veilItem own.tenant) =
      (first.filter fun _ => true).map (veilItem own.tenant) := by simp
  rw [all]
  refine filter_changed (fun item _ accepted => ⟨rfl, ?_⟩) fun item _ refused _ => ?_
  · unfold GlobalMemory.accepts at accepted
    simp only [Bool.and_eq_true, decide_eq_true_eq] at accepted
    unfold veilItem
    rw [KnowledgeRow.veil_of_own accepted.1.2]
  · by_cases here : item.1.2.entry.tenant = own.tenant
    · have same : veilItem own.tenant item = item := by
        unfold veilItem
        rw [KnowledgeRow.veil_of_own here]
      rwa [same]
    · simp [GlobalMemory.accepts, veilItem, here]

/-- The tenant has the neighbours of the base without the others' writes. -/
theorem neighbours_without (alike : Alike start mine own full purged) (fetchK : Nat) :
    own.neighbours r toolName fetchK
        (GlobalMemory.distances r (start.without mine full) queryVec) =
      own.neighbours r toolName fetchK (GlobalMemory.distances r purged queryVec) := by
  rw [← neighbours_veiled, map_distances, alike.rows, ← map_distances, neighbours_veiled]

/-- The neighbours of a base begin those of the tenant's part of the index. -/
theorem neighbours_prefix (r : Retrieval V κ) (toolName : Option String) (queryVec : V)
    {base : KnowledgeBase V} (keeps : base.Keeps mine own.tenant) (fetchK : Nat) :
    own.neighbours r toolName fetchK (GlobalMemory.distances r base queryVec) <+:
      own.neighbours r toolName fetchK
        ((GlobalMemory.distances r base queryVec).filter fun item => mine item.1.1) := by
  unfold GlobalMemory.neighbours GlobalMemory.nearest
  rw [← filter_byScore]
  refine filter_take_prefix fetchK _ fun item member accepted => ?_
  obtain ⟨entry, stored, given⟩ := List.mem_filterMap.mp (byScore_perm.mem_iff.mp member)
  obtain ⟨vec, _, rfl⟩ := Option.map_eq_some_iff.mp given
  by_contra other
  unfold GlobalMemory.accepts at accepted
  simp only [Bool.and_eq_true, decide_eq_true_eq] at accepted
  exact keeps entry stored (by simpa using other) accepted.1.2

theorem keeps_without (started : start.Keeps mine own.tenant) {base : KnowledgeBase V}
    (foreign : base.Keeps mine own.tenant) : (start.without mine base).Keeps mine own.tenant := by
  rintro entry member unknown
  obtain ⟨old, before, rfl⟩ := List.mem_map.mp member
  exact tenant_rowWithout started unknown (foreign old (List.mem_of_mem_filter before) unknown)

end Neighbours

end Alike

/-! ## Two tenants -/

/-- An operation of the tenant's instance, or of the other one. -/
structure KnowledgeEvent (V : Type) where
  own : Bool
  operation : KnowledgeOperation V

namespace GlobalMemory

variable [LinearOrder κ] (r : Retrieval V κ)

/-- As many entries as a search returns, if there are as many, that it accepts are among the
nearest of the index. -/
def reached (s : GlobalMemory) (toolName : Option String) (topK : Int) (queryVec : V)
    (base : KnowledgeBase V) : Nat :=
  min topK.toNat (s.neighbours r toolName (topK * 3).toNat (distances r base queryVec)).length

/-- The query for the nearest neighbours is made. -/
def AsksIndex (s : GlobalMemory) (query : String) (topK : Int) (queryVec : V) : Prop :=
  trim isSpace query.toList ≠ [] ∧ s.embeds ∧ s.vecAvailable ∧ r.fits queryVec ∧
    0 ≤ topK * 3 ∧ topK * 3 ≤ r.maxNeighbours

/-- The tenant writes under its own ids and is not locked out, and its search reaches in the
index as many of its entries as without what others have written. -/
def OwnOperation (start : KnowledgeBase V) (mine : String → Bool) (s : GlobalMemory)
    (base : KnowledgeBase V) : KnowledgeOperation V → Prop
  | .batchAdd entries _ => ∀ entry ∈ entries, mine entry.entryId = true ∧ ¬s.LockedOut base
  | .markResolved _ _ _ => ¬s.LockedOut base
  | .search query toolName topK queryVec => ∀ vec, queryVec = .ok vec →
      s.AsksIndex r query topK vec →
        s.reached r toolName topK vec base = s.reached r toolName topK vec (start.without mine base)
  | _ => True

/-- The other writes under none of the tenant's ids and stores nothing for it. -/
def OtherOperation (mine : String → Bool) (tenant : String) (s : GlobalMemory) :
    KnowledgeOperation V → Prop
  | .batchAdd entries _ => ∀ entry ∈ entries,
      mine entry.entryId = false ∧ (s.claimed entry).tenant ≠ tenant
  | _ => True

variable (own other : GlobalMemory)

/-- The instance that makes the operation. -/
def maker (event : KnowledgeEvent V) : GlobalMemory := if event.own then own else other

def step (base : KnowledgeBase V) (event : KnowledgeEvent V) : KnowledgeBase V :=
  ((maker own other event).call r base event.operation).1

def sees (base : KnowledgeBase V) (event : KnowledgeEvent V) : KnowledgeAnswer V :=
  ((maker own other event).call r base event.operation).2

/-- The tenants keep apart. -/
def Apart (start : KnowledgeBase V) (mine : String → Bool) (base : KnowledgeBase V)
    (event : KnowledgeEvent V) : Prop :=
  if event.own then own.OwnOperation r start mine base event.operation
  else other.OtherOperation mine own.tenant event.operation

/-- At the start all rows of the tenant are under its ids, and no one else is writing. -/
structure Begins (start : KnowledgeBase V) (mine : String → Bool) : Prop where
  keeps : start.Keeps mine own.tenant
  distinct : start.entries.keys.Nodup
  free : ¬own.LockedOut start

end GlobalMemory

namespace Alike

variable {start : KnowledgeBase V} {mine : String → Bool} {own other : GlobalMemory}
  {full purged : KnowledgeBase V} [LinearOrder κ] {r : Retrieval V κ}

theorem refl (begins : own.Begins start mine) : Alike start mine own start start where
  rows := by
    unfold KnowledgeBase.without
    dsimp only
    have all : (start.entries.filter fun entry => start.remains mine entry.1) = start.entries := by
      refine List.filter_eq_self.mpr fun entry member => ?_
      simp [KnowledgeBase.remains, OrderedDict.keys, List.mem_map_of_mem (f := Prod.fst) member]
    rw [all]
    refine congrArg (veiled own.tenant) ((List.map_congr_left fun entry member => ?_).trans
      (List.map_id _))
    have here := OrderedDict.lookup_eq_some_of_mem begins.distinct member
    unfold KnowledgeBase.rowWithout
    rw [here]
    simp
  started := begins.keeps
  foreign := begins.keeps
  distinct := begins.distinct
  kept := List.Subset.refl _
  free := begins.free

theorem vec0Search_eq (alike : Alike start mine own full purged) (toolName : Option String)
    (topK : Int) (queryVec : V)
    (reaches : r.fits queryVec → 0 ≤ topK * 3 → topK * 3 ≤ r.maxNeighbours →
      own.reached r toolName topK queryVec full =
        own.reached r toolName topK queryVec (start.without mine full)) :
    own.vec0Search r full queryVec toolName topK =
      own.vec0Search r purged queryVec toolName topK := by
  unfold GlobalMemory.vec0Search
  dsimp only
  split
  · rename_i asks
    obtain ⟨fits, positive, atMost⟩ := asks
    obtain ⟨count, rfl⟩ : ∃ count : Nat, topK = count := ⟨topK.toNat, by omega⟩
    have whole := neighbours_prefix r toolName queryVec
      alike.foreign ((count : Int) * 3).toNat
    have rest := neighbours_prefix r toolName queryVec
      (keeps_without alike.started alike.foreign) ((count : Int) * 3).toNat
    rw [filter_distances_without] at rest
    have same := take_eq_take_of_prefix count whole rest (reaches fits positive atMost)
    rw [alike.neighbours_without] at same
    exact congrArg (fun items => some (items.map fun item => item.1.2)) same
  · rfl

theorem search_eq (alike : Alike start mine own full purged) (query : String)
    (toolName : Option String) (topK : Int) (queryVec : Except Fault V)
    (allowed : own.OwnOperation r start mine full (.search query toolName topK queryVec)) :
    own.search r full query toolName topK queryVec =
      own.search r purged query toolName topK queryVec := by
  have found : own.found? r full query toolName topK queryVec =
      own.found? r purged query toolName topK queryVec := by
    unfold GlobalMemory.found?
    rw [alike.selected_eq]
    dsimp only
    split
    · rfl
    · rename_i asked
      split
      · rename_i embeds
        cases queryVec with
        | error fault => rfl
        | ok vec =>
            have vectors : own.vectorSearch r full vec toolName topK =
                own.vectorSearch r purged vec toolName topK := by
              unfold GlobalMemory.vectorSearch
              split
              · rename_i available
                rw [alike.vec0Search_eq toolName topK vec fun fits positive atMost =>
                  allowed vec rfl ⟨asked, embeds, available, fits, positive, atMost⟩]
              · unfold GlobalMemory.jsonSearch
                rw [alike.selected_eq]
            dsimp only
            rw [vectors]
      · rfl
  unfold GlobalMemory.search
  rw [found]

/-- The tenant is answered alike in bases that are alike, which stay alike. -/
theorem own_call (alike : Alike start mine own full purged) {operation : KnowledgeOperation V}
    (allowed : own.OwnOperation r start mine full operation) :
    (own.call r full operation).2 = (own.call r purged operation).2 ∧
      Alike start mine own (own.call r full operation).1 (own.call r purged operation).1 := by
  cases operation with
  | batchAdd entries vectors =>
      change (own.batchAdd r full entries vectors).2 = (own.batchAdd r purged entries vectors).2 ∧
        Alike start mine own (own.batchAdd r full entries vectors).1
          (own.batchAdd r purged entries vectors).1
      unfold GlobalMemory.batchAdd
      cases ready : own.prepared entries vectors with
      | none => exact ⟨rfl, alike⟩
      | some prepared =>
          have each : ∀ entry ∈ prepared, mine entry.entryId = true ∧ ¬own.LockedOut full := by
            intro entry member
            obtain ⟨given, isGiven, ids, _⟩ := GlobalMemory.mem_prepared ready member
            rw [ids]
            exact allowed given isGiven
          obtain ⟨done, after⟩ := alike.insertEntries_own r each
          refine ⟨?_, after⟩
          dsimp only
          rw [done]
  | markResolved entryId fixDescription now =>
      exact alike.markResolved_own entryId fixDescription now allowed
  | getEntry entryId =>
      refine ⟨congrArg KnowledgeAnswer.entry ?_, alike⟩
      unfold GlobalMemory.getEntry
      rw [alike.rowOf_eq]
  | listEntries toolName category unresolvedOnly limit =>
      refine ⟨?_, alike⟩
      change own.listEntries r full _ _ _ _ = own.listEntries r purged _ _ _ _
      unfold GlobalMemory.listEntries
      rw [alike.selected_eq]
  | search query toolName topK queryVec =>
      exact ⟨alike.search_eq query toolName topK queryVec allowed, alike⟩

/-- Another tenant's operation that keeps away is not seen. -/
theorem other_call (alike : Alike start mine own full purged)
    (different : other.tenant ≠ own.tenant) {operation : KnowledgeOperation V}
    (allowed : other.OtherOperation mine own.tenant operation) :
    Alike start mine own (other.call r full operation).1 purged := by
  cases operation with
  | batchAdd entries vectors =>
      change Alike start mine own (other.batchAdd r full entries vectors).1 purged
      unfold GlobalMemory.batchAdd
      cases ready : other.prepared entries vectors with
      | none => exact alike
      | some prepared =>
          refine alike.insertEntries_other r fun entry member => ?_
          obtain ⟨given, isGiven, ids, tenants⟩ := GlobalMemory.mem_prepared ready member
          rw [ids, tenants]
          exact allowed given isGiven
  | markResolved entryId fixDescription now =>
      exact alike.markResolved_other different entryId fixDescription now
  | getEntry entryId => exact alike
  | listEntries toolName category unresolvedOnly limit => exact alike
  | search query toolName topK queryVec => exact alike

end Alike

namespace GlobalMemory

variable [LinearOrder κ]

/-- A tenant is answered as without the operations of the other, if they keep apart. -/
theorem knowledge_unaffected (r : Retrieval V κ) (own other : GlobalMemory)
    (different : own.tenant ≠ other.tenant) (start : KnowledgeBase V) (mine : String → Bool)
    (begins : own.Begins start mine) (events : List (KnowledgeEvent V))
    (apart : StepsMeet (step r own other) (Apart r own other start mine) start events) :
    Unaffected (step r own other) (sees r own other) KnowledgeEvent.own start events := by
  refine unaffected_of_alike (Alike start mine own) (fun full purged event alike isOwn here => ?_)
    (fun full purged event alike isOther here => ?_) (.refl begins) apart
  · unfold Apart at here
    rw [if_pos isOwn] at here
    unfold sees step maker
    rw [if_pos isOwn]
    exact alike.own_call here
  · unfold Apart at here
    rw [if_neg (by simp [isOther])] at here
    unfold step maker
    rw [if_neg (by simp [isOther])]
    exact alike.other_call (Ne.symm different) here

/-! ## Two instances -/

/-- Vectors that are numbers, with their distance. -/
def onLine : Retrieval Int Int where
  lower := id
  orderBy := id
  fits := fun _ => true
  maxNeighbours := 4096
  normalize := id
  distance := fun first second => |first - second|
  near := fun distance => distance < 10
  similarity := fun query vector => vector.elim 0 fun vector => 10 - |query - vector|
  similar := fun score => 0 < score

def ofTenantT : GlobalMemory := .create "t" true true 0

def ofTenantU : GlobalMemory := .create "u" true true 1

/-- An insertion of one entry. -/
def adds (own : Bool) (entryId content : String) (vector : Int) : KnowledgeEvent Int :=
  ⟨own, .batchAdd [{ entryId := entryId, content := content, createdAt := 0, updatedAt := 0 }]
    (.ok [vector])⟩

/-- An insertion by the other tenant under an id of the tenant changes what it reads. -/
theorem other_tenant_overwrites :
    ofTenantT.tenant ≠ ofTenantU.tenant ∧
      ¬Unaffected (step onLine ofTenantT ofTenantU) (sees onLine ofTenantT ofTenantU)
        KnowledgeEvent.own {}
        [adds true "e" "first" 1, adds false "e" "second" 2, ⟨true, .getEntry "e"⟩] := by
  refine ⟨by decide, fun same => ?_⟩
  have contents := congrArg (List.map fun answer => answer.entry?.map fun found =>
    found.map KnowledgeEntry.content) same
  exact absurd contents (by decide)

theorem knowledge_unaffected_apart :
    Unaffected (step onLine ofTenantT ofTenantU) (sees onLine ofTenantT ofTenantU)
      KnowledgeEvent.own {}
      [adds true "a" "first" 1, adds false "b" "second" 2,
        ⟨true, .search "first" none 5 (.ok 1)⟩] := by
  refine knowledge_unaffected onLine ofTenantT ofTenantU (by decide) {} (fun entryId => entryId == "a")
    ⟨fun _ member => absurd member List.not_mem_nil, List.nodup_nil, by decide⟩ _
    ⟨?_, ?_, ?_, trivial⟩
  · simp only [Apart, adds, OwnOperation, if_true]
    decide
  · unfold Apart
    rw [if_neg (by decide)]
    simp only [adds, OtherOperation]
    decide
  · rintro vec same -
    obtain rfl := Except.ok.inj same
    decide

end GlobalMemory

end YouMi.Knowledge

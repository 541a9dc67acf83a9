import Mathlib.Algebra.Order.Ring.Rat
import YouMi.Mcp.ToolStore.WellFormed

/-!
# Cone search

`search_cone` ranks rows on one of three paths: by the `vec0` index, by vectors
stored as JSON, or by keywords.  All three apply the same cone of filters, but
only the keyword path looks at the heads of `main` alone.
-/

namespace YouMi.Mcp.ToolStore

open YouMi.Core YouMi.Library YouMi.Python

variable {V : Type}

/-! ## The vector index -/

/-- The `vec0` table of a level. -/
def StoreState.index (s : StoreState V) : VecLevel → List (Nat × V)
  | .l1 => s.vecToolsIdx
  | .l2 => s.vecToolsL2Idx

/-- Every `vec0` table has at most one vector under a row id. -/
structure IndexKeyed (s : StoreState V) : Prop where
  l1 : (s.vecToolsIdx.map Prod.fst).Nodup
  l2 : (s.vecToolsL2Idx.map Prod.fst).Nodup

theorem IndexKeyed.index {s : StoreState V} (keyed : IndexKeyed s) (level : VecLevel) :
    ((s.index level).map Prod.fst).Nodup := by
  cases level with
  | l1 => exact keyed.l1
  | l2 => exact keyed.l2

theorem nodup_replaced {entries : List (Nat × V)} (nodup : (entries.map Prod.fst).Nodup)
    (rowId : Nat) (vector : V) :
    ((entries.filter (fun entry => entry.1 ≠ rowId) ++ [(rowId, vector)]).map Prod.fst).Nodup := by
  rw [List.map_append, List.map_singleton, List.nodup_append]
  refine ⟨nodup.sublist (List.filter_sublist.map _), List.nodup_singleton _, ?_⟩
  intro old member new last
  obtain ⟨entry, kept, rfl⟩ := List.mem_map.mp member
  rw [List.mem_singleton.mp last]
  simpa using (List.mem_filter.mp kept).2

theorem IndexKeyed.writeVec {level : VecLevel} {rowId : Nat} {toolId toolName : String}
    {embedding : V} {s written : StoreState V} (keyed : IndexKeyed s)
    (done : writeVec level rowId toolId toolName embedding s = some written) :
    IndexKeyed written := by
  unfold ToolStore.writeVec at done
  split at done
  · split at done
    · cases level with
      | l1 =>
          cases done
          exact ⟨nodup_replaced keyed.l1 _ _, keyed.l2⟩
      | l2 =>
          cases done
          exact ⟨keyed.l1, nodup_replaced keyed.l2 _ _⟩
    · cases done
  · split at done <;> cases done <;> exact ⟨keyed.l1, keyed.l2⟩

theorem undisturbed_indexKeyed : Undisturbed (IndexKeyed : StoreState V → Prop) where
  tools := fun _ keyed => ⟨keyed.l1, keyed.l2⟩
  changelogs := fun _ keyed => ⟨keyed.l1, keyed.l2⟩
  vector := fun done keyed => keyed.writeVec done

theorem IndexKeyed.deleteVecs {s : StoreState V} (keyed : IndexKeyed s) (deleted : List ToolRow) :
    IndexKeyed (deleteVecs deleted s) := by
  unfold ToolStore.deleteVecs
  dsimp only
  split
  · exact ⟨keyed.l1.sublist (List.filter_sublist.map _),
      keyed.l2.sublist (List.filter_sublist.map _)⟩
  · exact ⟨keyed.l1, keyed.l2⟩

theorem IndexKeyed.deleteTool {s : StoreState V} (keyed : IndexKeyed s)
    (toolName version : String) : IndexKeyed (deleteTool toolName version s).2 := by
  unfold ToolStore.deleteTool
  dsimp only
  split
  · exact keyed
  · have left := keyed.deleteVecs (s.tools.rows.filter (selects toolName version))
    exact ⟨left.l1, left.l2⟩

theorem IndexKeyed.addTag {s : StoreState V} (keyed : IndexKeyed s) (toolName tag : String) :
    IndexKeyed (addTag toolName tag s) := by
  unfold ToolStore.addTag
  split
  · exact keyed
  · split
    · exact keyed
    · exact ⟨keyed.l1, keyed.l2⟩

theorem step_indexKeyed (s : StoreState V) (action : Env V × Call V) (keyed : IndexKeyed s) :
    IndexKeyed (step s action) := by
  apply undisturbed_indexKeyed.step keyed
  · intro toolName version _
    exact keyed.deleteTool toolName version
  · intro toolName tag _
    exact keyed.addTag toolName tag

theorem ReachableState.indexKeyed {s : StoreState V} (reach : ReachableState s) :
    IndexKeyed s := by
  obtain ⟨vecExtension, run⟩ := reach
  have init : IndexKeyed (StoreState.empty vecExtension : StoreState V) :=
    ⟨List.nodup_nil, List.nodup_nil⟩
  exact Reachable.invariant IndexKeyed init step_indexKeyed run

/-! ## The cone -/

/-- The filters of a search; empty lists stand for none given. -/
structure Cone where
  exclude : List String
  excludeLineages : List String
  tags : List String
  riskCeiling : String

/-- `_cone_where`: the row is inside of the risk, name, lineage and tag boundaries. -/
def coneWhere (cone : Cone) (s : StoreState V) (row : ToolRow) : Prop :=
  riskRank row.riskLevel ≤ riskRank cone.riskCeiling ∧ row.toolName ∉ cone.exclude ∧
    (row.lineageId = "" ∨ row.lineageId ∉ cone.excludeLineages) ∧
    (cone.tags = [] ∨ ∃ tag ∈ cone.tags, (row.toolId, tag) ∈ s.toolTags)

instance (cone : Cone) (s : StoreState V) (row : ToolRow) : Decidable (coneWhere cone s row) :=
  inferInstanceAs (Decidable (_ ∧ _ ∧ _ ∧ _))

structure SearchRequest where
  query : String
  topK : Nat
  minScore : Rat
  cone : Cone
  indexLevel : String

/-- Both vector paths read a level other than `l2` as `l1`. -/
def SearchRequest.level (request : SearchRequest) : VecLevel :=
  if request.indexLevel = "l2" then .l2 else .l1

/--
What ranking takes from outside: the nearest neighbours in a `vec0` table, the
scores in floating point, and lower case.
-/
structure Ranking (V : Type) where
  /-- The row ids and distances of at most so many entries near the vector. -/
  knn : V → Nat → List (Nat × V) → List (Nat × Rat)
  /-- The neighbours are entries of the table, each taken once. -/
  knn_entries : ∀ query k index,
    ((knn query k index).map Prod.fst).Subperm (index.map Prod.fst)
  l2ToCosine : Rat → Rat
  cosineSimilarity : V → V → Rat
  lower : String → String

theorem Ranking.knn_nodup (ranking : Ranking V) (query : V) (k : Nat) {index : List (Nat × V)}
    (nodup : (index.map Prod.fst).Nodup) : ((ranking.knn query k index).map Prod.fst).Nodup := by
  obtain ⟨chosen, same, part⟩ := ranking.knn_entries query k index
  exact same.nodup_iff.mp (nodup.sublist part)

/-! ## The three paths -/

/-- A row with its score. -/
abbrev Hit := ToolRow × Rat

/-- The best hits in the order of their scores, a stable sort as Python's. -/
def bestHits (topK : Nat) (hits : List Hit) : List Hit :=
  (hits.insertionSort fun first second => second.2 ≤ first.2).take topK

def scoredHits (request : SearchRequest) (hits : List Hit) : List Hit :=
  bestHits request.topK (hits.filter fun hit => request.minScore ≤ hit.2)

/-- The query of `_vec0_search`: neighbours first, then the cone; rows with distances. -/
def vec0Rows (ranking : Ranking V) (request : SearchRequest) (queryVec : V) (level : VecLevel)
    (s : StoreState V) : List Hit :=
  let cone := request.cone
  let hasFilters := cone.exclude ≠ [] ∨ cone.excludeLineages ≠ [] ∨ cone.tags ≠ [] ∨
    cone.riskCeiling ≠ "critical"
  let fetchK := if hasFilters then request.topK * 3 else request.topK
  let near := ranking.knn queryVec fetchK (s.index level)
  let joined := near.filterMap fun entry =>
    (s.tools.rows.find? fun row => row.id = entry.1).map fun row => (row, entry.2)
  (joined.filter fun hit => coneWhere cone s hit.1).insertionSort
    fun first second => first.2 ≤ second.2

/-- Without a row on the second level, the first is searched. -/
def orFirstLevel (level : VecLevel) (rows : VecLevel → List Hit) : List Hit :=
  if rows level = [] ∧ level = .l2 then rows .l1 else rows level

def vec0Search (ranking : Ranking V) (request : SearchRequest) (vec : VecExtension V)
    (queryVec : V) (s : StoreState V) : List Hit :=
  let rows := orFirstLevel request.level fun level =>
    vec0Rows ranking request (vec.normalize queryVec) level s
  scoredHits request (rows.map fun hit => (hit.1, ranking.l2ToCosine hit.2))

/-- The vector of the row in the table of JSON vectors. -/
def jsonVector (s : StoreState V) (level : VecLevel) (row : ToolRow) : Option V :=
  (s.vecTools.find? fun entry => entry.toolId = row.toolId ∧ entry.level = level).map
    VecRow.embedding

/-- The query of `_json_search`: rows of the cone with their scores. -/
def jsonRows (ranking : Ranking V) (request : SearchRequest) (queryVec : V) (level : VecLevel)
    (s : StoreState V) : List Hit :=
  (s.tools.rows.filter (coneWhere request.cone s)).filterMap fun row =>
    (jsonVector s level row).map fun vector => (row, ranking.cosineSimilarity queryVec vector)

def jsonSearch (ranking : Ranking V) (request : SearchRequest) (queryVec : V)
    (s : StoreState V) : List Hit :=
  scoredHits request
    (orFirstLevel request.level fun level => jsonRows ranking request queryVec level s)

/-- The words of a text and its characters other than white space. -/
def tokens (text : String) : List String :=
  let words := (text.toList.splitOnP isSpace).filter fun word => word ≠ []
  let letters := (text.toList.filter fun c => !isSpace c).map fun c => [c]
  ((words ++ letters).map String.ofList).dedup

def keywordScore (ranking : Ranking V) (query : String) (row : ToolRow) : Rat :=
  let queryTokens := tokens (ranking.lower query)
  let text := row.toolName ++ " " ++ row.definition.description ++ " " ++ row.summary
  let textTokens := tokens (ranking.lower text)
  let overlap := queryTokens.filter fun token => token ∈ textTokens
  (overlap.length : Rat) / (max queryTokens.length 1 : Nat)

/-- The query of `_keyword_search`. -/
def keywordRows (cone : Cone) (s : StoreState V) : List ToolRow :=
  s.tools.rows.filter fun row => row.branch = "main" ∧ row.isHead ∧ coneWhere cone s row

def keywordSearch (ranking : Ranking V) (request : SearchRequest) (s : StoreState V) : List Hit :=
  let scored := (keywordRows request.cone s).map fun row =>
    (row, keywordScore ranking request.query row)
  bestHits request.topK
    ((scored.filter fun hit => 0 < hit.2).map fun hit => (hit.1, min hit.2 1))

structure ToolSearchResult where
  toolName : String
  definition : ToolDefinition
  score : Rat
  summary : String
  riskLevel : String
  requiredPermissions : List String
  lineageId : String

def makeSearchResult (hit : Hit) : ToolSearchResult where
  toolName := hit.1.toolName
  definition := hit.1.definition
  score := hit.2
  summary := orElse hit.1.summary (slice hit.1.definition.description 80)
  riskLevel := orElse hit.1.riskLevel "low"
  requiredPermissions := hit.1.requiredPermissions
  lineageId := orElse hit.1.lineageId hit.1.toolName

/-- The hits of `search_cone`: by keywords where the query cannot be embedded. -/
def searchHits (ranking : Ranking V) (env : Env V) (request : SearchRequest)
    (s : StoreState V) : List Hit :=
  match env.embedOne.bind fun embed => embed request.query with
  | none => keywordSearch ranking request s
  | some queryVec =>
      match s.vecExtension with
      | some vec => vec0Search ranking request vec queryVec s
      | none => jsonSearch ranking request queryVec s

def searchCone (ranking : Ranking V) (env : Env V) (request : SearchRequest)
    (s : StoreState V) : List ToolSearchResult :=
  (searchHits ranking env request s).map makeSearchResult

/-! ## Which rows are ranked -/

inductive SearchPath where
  | vec0
  | json
  | keyword

/-- The rows the filters of a path leave for ranking. -/
def eligible (path : SearchPath) (level : VecLevel) (cone : Cone) (s : StoreState V) :
    List ToolRow :=
  match path with
  | .vec0 =>
      s.tools.rows.filter fun row =>
        coneWhere cone s row ∧ row.id ∈ (s.index level).map Prod.fst
  | .json =>
      s.tools.rows.filter fun row => coneWhere cone s row ∧ (jsonVector s level row).isSome
  | .keyword => keywordRows cone s

/-- Every row has what the path ranks it by. -/
def Embeds (s : StoreState V) (level : VecLevel) : SearchPath → Prop
  | .vec0 => ∀ row ∈ s.tools.rows, row.id ∈ (s.index level).map Prod.fst
  | .json => ∀ row ∈ s.tools.rows, (jsonVector s level row).isSome
  | .keyword => True

/-- The path of a query that can be embedded. -/
def vectorPath (s : StoreState V) : SearchPath :=
  match s.vecExtension with
  | some _ => .vec0
  | none => .json

/-- Head of `main` for the tool. -/
def IsMainHead (row : ToolRow) : Prop := row.branch = "main" ∧ row.isHead = true

section Eligible

variable {s : StoreState V} {cone : Cone} {level : VecLevel} {row : ToolRow}

theorem mem_eligible_keyword :
    row ∈ eligible .keyword level cone s ↔
      row ∈ s.tools.rows ∧ coneWhere cone s row ∧ IsMainHead row := by
  simp only [eligible, keywordRows, List.mem_filter, decide_eq_true_eq, IsMainHead]
  tauto

/-- With all rows embedded, a vector path ranks every row of the cone. -/
theorem mem_eligible_of_embeds {path : SearchPath} (vector : path ≠ .keyword)
    (embeds : Embeds s level path) :
    row ∈ eligible path level cone s ↔ row ∈ s.tools.rows ∧ coneWhere cone s row := by
  cases path with
  | vec0 =>
      simp only [eligible, List.mem_filter, decide_eq_true_eq]
      exact and_congr_right fun member => and_iff_left (embeds row member)
  | json =>
      simp only [eligible, List.mem_filter, decide_eq_true_eq]
      exact and_congr_right fun member => and_iff_left (embeds row member)
  | keyword => exact absurd rfl vector

theorem coneWhere_of_eligible {path : SearchPath} (member : row ∈ eligible path level cone s) :
    row ∈ s.tools.rows ∧ coneWhere cone s row := by
  cases path with
  | vec0 =>
      simp only [eligible, List.mem_filter, decide_eq_true_eq] at member
      exact ⟨member.1, member.2.1⟩
  | json =>
      simp only [eligible, List.mem_filter, decide_eq_true_eq] at member
      exact ⟨member.1, member.2.1⟩
  | keyword =>
      obtain ⟨here, inside, _⟩ := mem_eligible_keyword.mp member
      exact ⟨here, inside⟩

end Eligible

/-! ## What the paths return -/

theorem bestHits_subperm (topK : Nat) (hits : List Hit) : (bestHits topK hits).Subperm hits :=
  (List.take_sublist _ _).subperm.trans (List.perm_insertionSort _ hits).subperm

theorem scoredHits_subperm (request : SearchRequest) (hits : List Hit) :
    (scoredHits request hits).Subperm hits :=
  (bestHits_subperm _ _).trans List.filter_sublist.subperm

section Paths

variable (ranking : Ranking V) (request : SearchRequest) (queryVec : V) (level : VecLevel)
  {s : StoreState V}

theorem mem_vec0Rows {hit : Hit} (member : hit ∈ vec0Rows ranking request queryVec level s) :
    hit.1 ∈ eligible .vec0 level request.cone s := by
  unfold vec0Rows at member
  rw [List.mem_insertionSort, List.mem_filter, decide_eq_true_eq, List.mem_filterMap] at member
  obtain ⟨⟨entry, near, found⟩, inside⟩ := member
  obtain ⟨row, isRow, rfl⟩ := Option.map_eq_some_iff.mp found
  have id : row.id = entry.1 := by simpa using List.find?_some isRow
  simp only [eligible, List.mem_filter, decide_eq_true_eq]
  refine ⟨List.mem_of_find?_eq_some isRow, inside, ?_⟩
  rw [id]
  exact (ranking.knn_entries _ _ _).subset (List.mem_map_of_mem near)

theorem vec0Rows_nodup (keyed : IndexKeyed s) :
    ((vec0Rows ranking request queryVec level s).map Prod.fst).Nodup := by
  unfold vec0Rows
  rw [((List.perm_insertionSort _ _).map _).nodup_iff]
  refine List.Nodup.sublist (List.filter_sublist.map _) (List.Nodup.of_map ToolRow.id ?_)
  rw [List.map_map]
  -- The rows that are joined have the row ids of the neighbours.
  have join (near : List (Nat × Rat)) :
      ((near.filterMap fun entry => (s.tools.rows.find? fun row => row.id = entry.1).map
        fun row => (row, entry.2)).map (ToolRow.id ∘ Prod.fst)).Sublist (near.map Prod.fst) := by
    induction near with
    | nil => exact List.Sublist.slnil
    | cons entry rest ih =>
        cases found : s.tools.rows.find? fun row => row.id = entry.1 with
        | none =>
            rw [List.filterMap_cons_none (by rw [found]; rfl)]
            exact ih.cons entry.1
        | some row =>
            have id : row.id = entry.1 := by simpa using List.find?_some found
            rw [List.filterMap_cons_some (by rw [found]; rfl), List.map_cons, List.map_cons]
            dsimp only [Function.comp_apply]
            rw [id]
            exact ih.cons_cons entry.1
  exact (join _).nodup (ranking.knn_nodup _ _ (keyed.index level))

theorem jsonRows_map :
    (jsonRows ranking request queryVec level s).map Prod.fst =
      eligible .json level request.cone s := by
  unfold jsonRows eligible
  induction s.tools.rows with
  | nil => rfl
  | cons row rest ih =>
      by_cases inside : coneWhere request.cone s row
      · cases vector : jsonVector s level row with
        | none => simp [inside, vector, ih]
        | some v => simp [inside, vector, ih]
      · simp [inside, ih]

end Paths

/-- The hits are rows of the cone, each once. -/
structure InCone (cone : Cone) (s : StoreState V) (hits : List Hit) : Prop where
  nodup : (hits.map Prod.fst).Nodup
  inside : ∀ row ∈ hits.map Prod.fst, row ∈ s.tools.rows ∧ coneWhere cone s row

theorem InCone.subperm {cone : Cone} {s : StoreState V} {hits kept : List Hit}
    (inCone : InCone cone s hits) (part : kept.Subperm hits) : InCone cone s kept := by
  obtain ⟨same, perm, sub⟩ := part
  refine ⟨(perm.map _).nodup_iff.mp (inCone.nodup.sublist (sub.map _)), fun row member => ?_⟩
  exact inCone.inside row ((sub.map _).subset ((perm.map _).mem_iff.mpr member))

/-- Other scores for the same rows. -/
theorem InCone.rescore {cone : Cone} {s : StoreState V} {hits : List Hit}
    (inCone : InCone cone s hits) (score : Hit → Rat) :
    InCone cone s (hits.map fun hit => (hit.1, score hit)) := by
  have same : (hits.map fun hit => (hit.1, score hit)).map Prod.fst = hits.map Prod.fst := by
    rw [List.map_map]
    rfl
  exact ⟨same ▸ inCone.nodup, same ▸ inCone.inside⟩

theorem orFirstLevel_inCone {cone : Cone} {s : StoreState V} {rows : VecLevel → List Hit}
    (inCone : ∀ level, InCone cone s (rows level)) (level : VecLevel) :
    InCone cone s (orFirstLevel level rows) := by
  unfold orFirstLevel
  split
  · exact inCone .l1
  · exact inCone level

theorem keywordSearch_inCone (ranking : Ranking V) (request : SearchRequest) (s : StoreState V) :
    InCone request.cone s (keywordSearch ranking request s) := by
  have all : InCone request.cone s ((keywordRows request.cone s).map fun row =>
      (row, keywordScore ranking request.query row)) := by
    have rows : ((keywordRows request.cone s).map fun row =>
        (row, keywordScore ranking request.query row)).map Prod.fst =
          eligible .keyword .l1 request.cone s := by
      rw [List.map_map]
      exact List.map_id _
    refine ⟨?_, fun row member => ?_⟩
    · rw [rows]
      exact s.tools.nodup.filter _
    · rw [rows] at member
      exact coneWhere_of_eligible member
  exact ((all.subperm List.filter_sublist.subperm).rescore _).subperm (bestHits_subperm _ _)

theorem vec0Search_inCone (ranking : Ranking V) (request : SearchRequest) (vec : VecExtension V)
    (queryVec : V) {s : StoreState V} (keyed : IndexKeyed s) :
    InCone request.cone s (vec0Search ranking request vec queryVec s) := by
  refine InCone.subperm (InCone.rescore (orFirstLevel_inCone (fun level => ⟨?_, ?_⟩) _) _)
    (scoredHits_subperm request _)
  · exact vec0Rows_nodup ranking request _ level keyed
  · intro row member
    obtain ⟨hit, here, rfl⟩ := List.mem_map.mp member
    exact coneWhere_of_eligible (mem_vec0Rows ranking request _ level here)

theorem jsonSearch_inCone (ranking : Ranking V) (request : SearchRequest) (queryVec : V)
    (s : StoreState V) : InCone request.cone s (jsonSearch ranking request queryVec s) := by
  refine InCone.subperm (orFirstLevel_inCone (fun level => ?_) _) (scoredHits_subperm request _)
  have rows := jsonRows_map ranking request queryVec level (s := s)
  refine ⟨?_, fun row member => ?_⟩
  · rw [rows]
    exact s.tools.nodup.filter _
  · rw [rows] at member
    exact coneWhere_of_eligible member

/-- Whatever the path, a search returns rows of its cone, each once. -/
theorem searchHits_inCone (ranking : Ranking V) (env : Env V) (request : SearchRequest)
    {s : StoreState V} (keyed : IndexKeyed s) :
    InCone request.cone s (searchHits ranking env request s) := by
  unfold searchHits
  split
  · exact keywordSearch_inCone ranking request s
  · split
    · exact vec0Search_inCone ranking request _ _ keyed
    · exact jsonSearch_inCone ranking request _ s

/--
A search returns each tool at most once, as the head of `main` inside of the
cone, and ranks the same rows on every path on which all rows can be ranked.
-/
structure SearchesHeads (ranking : Ranking V) (request : SearchRequest) (s : StoreState V) :
    Prop where
  once : ∀ env, ((searchCone ranking env request s).map ToolSearchResult.toolName).Nodup
  heads : ∀ env, ∀ hit ∈ searchHits ranking env request s,
    hit.1 ∈ s.tools.rows ∧ IsMainHead hit.1 ∧ coneWhere request.cone s hit.1
  samePaths : ∀ path path', Embeds s request.level path → Embeds s request.level path' →
    ∀ row, row ∈ eligible path request.level request.cone s ↔
      row ∈ eligible path' request.level request.cone s

/--
In a reachable state with a vector for every row, a search is about heads exactly
if no other row passes the filters of its cone.
-/
theorem searchesHeads_iff (ranking : Ranking V) (request : SearchRequest) {s : StoreState V}
    (reach : ReachableState s) (embeds : Embeds s request.level (vectorPath s)) :
    SearchesHeads ranking request s ↔
      ∀ row ∈ s.tools.rows, coneWhere request.cone s row → IsMainHead row := by
  have vector : vectorPath s ≠ .keyword := by
    unfold vectorPath
    split <;> simp
  constructor
  · intro searches row member inside
    have onPath := (mem_eligible_of_embeds vector embeds).mpr ⟨member, inside⟩
    have onKeyword := (searches.samePaths (vectorPath s) .keyword embeds trivial row).mp onPath
    exact (mem_eligible_keyword.mp onKeyword).2.2
  · intro onlyHeads
    have inCone {path : SearchPath} (embedded : Embeds s request.level path) (row : ToolRow) :
        row ∈ eligible path request.level request.cone s ↔
          row ∈ s.tools.rows ∧ coneWhere request.cone s row := by
      by_cases keyword : path = .keyword
      · subst keyword
        rw [mem_eligible_keyword]
        constructor
        · exact fun here => ⟨here.1, here.2.1⟩
        · exact fun here => ⟨here.1, here.2, onlyHeads row here.1 here.2⟩
      · exact mem_eligible_of_embeds keyword embedded
    refine ⟨?_, ?_, fun path path' first second row => ?_⟩
    · intro env
      obtain ⟨nodup, inside⟩ := searchHits_inCone ranking env request reach.indexKeyed
      have names : (searchCone ranking env request s).map ToolSearchResult.toolName =
          ((searchHits ranking env request s).map Prod.fst).map ToolRow.toolName := by
        rw [searchCone, List.map_map, List.map_map]
        rfl
      rw [names]
      -- A tool has one head on main.
      refine nodup.map_on fun first hfirst second hsecond same => ?_
      obtain ⟨here, cone⟩ := inside first hfirst
      obtain ⟨here', cone'⟩ := inside second hsecond
      have head := onlyHeads first here cone
      have head' := onlyHeads second here' cone'
      exact reach.wellFormed.heads first here second here' head.2 head'.2
        ⟨same.symm, head'.1.trans head.1.symm⟩
    · intro env hit member
      obtain ⟨here, cone⟩ := (searchHits_inCone ranking env request reach.indexKeyed).inside hit.1
        (List.mem_map_of_mem member)
      exact ⟨here, onlyHeads _ here cone, cone⟩
    · rw [inCone first, inCone second]

/-- All vectors are alike. -/
def unitRanking : Ranking Unit where
  knn _ k index := (index.take k).map fun entry => (entry.1, 0)
  knn_entries _ k index := by
    rw [List.map_map]
    exact ((List.take_sublist k index).map Prod.fst).subperm
  l2ToCosine distance := 1 - distance * distance / 2
  cosineSimilarity _ _ := 1
  lower := String.toLower

def plainRequest : SearchRequest := ⟨"tool", 5, 3 / 10, ⟨[], [], [], "critical"⟩, "l1"⟩

/-- Two versions of a tool, each with a vector. -/
def twoVersions : List (Env Unit × Call Unit) :=
  [(atTime 1, .upsertTool { plainEntry "0.0.1" with embedding := some () }),
    (⟨2, none, some fun _ => some ()⟩,
      .createVersion "tool" (plainDefinition "second") "" "patch" "main" "")]

theorem embeds_twoVersions :
    Embeds (run step (StoreState.empty none) twoVersions) plainRequest.level
      (vectorPath (run step (StoreState.empty none) twoVersions)) := by
  have all : (run step (StoreState.empty none) twoVersions).tools.rows.all (fun row =>
      (jsonVector (run step (StoreState.empty none) twoVersions) .l1 row).isSome) = true := by
    rfl
  exact List.all_eq_true.mp all

theorem searchesHeads_iff_twoVersions :
    SearchesHeads unitRanking plainRequest (run step (StoreState.empty none) twoVersions) ↔
      ∀ row ∈ (run step (StoreState.empty none) twoVersions).tools.rows,
        coneWhere plainRequest.cone (run step (StoreState.empty none) twoVersions) row →
          IsMainHead row :=
  searchesHeads_iff unitRanking plainRequest (reachableState_run none twoVersions)
    embeds_twoVersions

theorem not_searchesHeads_twoVersions :
    Embeds (run step (StoreState.empty none) twoVersions) plainRequest.level
        (vectorPath (run step (StoreState.empty none) twoVersions)) ∧
      ¬ SearchesHeads unitRanking plainRequest (run step (StoreState.empty none) twoVersions) := by
  refine ⟨embeds_twoVersions, fun searches => ?_⟩
  have twice : (searchCone unitRanking ⟨3, none, some fun _ => some ()⟩ plainRequest
      (run step (StoreState.empty none) twoVersions)).map ToolSearchResult.toolName =
        ["tool", "tool"] := by decide +kernel
  have once := searches.once ⟨3, none, some fun _ => some ()⟩
  rw [twice] at once
  simp at once

end YouMi.Mcp.ToolStore

import YouMi.Mcp.Cone
import YouMi.Mcp.ToolStore.SearchPaths
import YouMi.Mcp.ToolStore.Tags

/-!
# How many tools a retrieval returns

A retrieval asks a search for twice as many tools as it is asked for, and tests some
boundaries only afterwards.  It returns as many eligible tools as there are, up to the
number it is asked for, as far as the tools that it leaves out afterwards do not crowd
them out of the search.
-/

namespace YouMi.Mcp

open YouMi.Core YouMi.Library YouMi.Mcp.ToolStore

variable {V : Type}

/-! ## Where a retrieval searches -/

inductive Pool (V : Type) where
  | nothing
  | store (access : StoreAccess V) (s : StoreState V)
  /-- The store behind the vault. -/
  | vaultStore (access : StoreAccess V) (s : StoreState V)
  /-- The entries of the vault. -/
  | memory (entries : OrderedDict String (VaultEntry V))

namespace Pool

def ofVault (env : RetrievalEnv V) : Option (SearchableVault V) → Pool V
  | none => .nothing
  | some vault =>
      match vault.attachedStore with
      | none => .memory vault.entries
      | some s => if env.vault.raises then .memory vault.entries else .vaultStore env.vault s

/-- The pool of a retriever: a store that raises is passed over. -/
def ofRetriever (env : RetrievalEnv V) (retriever : ConeRetriever V) : Pool V :=
  match retriever.store with
  | none => ofVault env retriever.vault
  | some s => if env.cone.raises then ofVault env retriever.vault else .store env.cone s

theorem ofVault_memory {env : RetrievalEnv V} {vault : SearchableVault V}
    (fallsBack : vault.attachedStore = none ∨ env.vault.raises = true) :
    ofVault env (some vault) = .memory vault.entries := by
  rw [ofVault]
  cases attached : vault.attachedStore with
  | none => rfl
  | some s =>
      rw [attached] at fallsBack
      exact if_pos (fallsBack.resolve_left nofun)

theorem ofVault_store {env : RetrievalEnv V} {vault : SearchableVault V} {s : StoreState V}
    (attached : vault.attachedStore = some s) (works : env.vault.raises = false) :
    ofVault env (some vault) = .vaultStore env.vault s := by
  rw [ofVault, attached]
  exact if_neg (Bool.eq_false_iff.mp works)

theorem ofRetriever_vault {env : RetrievalEnv V} {retriever : ConeRetriever V}
    (fallsBack : retriever.store = none ∨ env.cone.raises = true) :
    ofRetriever env retriever = ofVault env retriever.vault := by
  rw [ofRetriever]
  cases store : retriever.store with
  | none => rfl
  | some s =>
      rw [store] at fallsBack
      exact if_pos (fallsBack.resolve_left nofun)

theorem ofRetriever_store {env : RetrievalEnv V} {retriever : ConeRetriever V} {s : StoreState V}
    (store : retriever.store = some s) (works : env.cone.raises = false) :
    ofRetriever env retriever = .store env.cone s := by
  rw [ofRetriever, store]
  exact if_neg (Bool.eq_false_iff.mp works)

/-- The boundaries that the search itself tests. -/
def boundaries (cone : ConeQuery) : Pool V → Cone
  | .store _ _ => ⟨cone.excludeNames, cone.excludeLineages, cone.tags, cone.riskCeiling⟩
  | _ => ⟨cone.excludeNames, [], [], "critical"⟩

/-- The boundaries that are tested afterwards. -/
def keeps (cone : ConeQuery) (pool : Pool V) (found : ToolStore.ToolSearchResult) : Bool :=
  permissionsSatisfied found.requiredPermissions cone.grantedPermissions &&
    match pool with
    | .store _ _ => true
    | _ => riskRank found.riskLevel ≤ riskRank cone.riskCeiling ∧
        orElse found.lineageId found.toolName ∉ cone.excludeLineages

end Pool

/-! ## Tools and their similarity -/

/-- The similarity of a row to the query, if it has a vector. -/
def rowSimilarity (ranking : Ranking V) (distance : V → V → Rat) (queryVec : V) (s : StoreState V)
    (row : ToolRow) : Option Rat :=
  match s.vecExtension with
  | some vec =>
      ((s.index .l1).lookup row.id).map fun stored =>
        ranking.l2ToCosine (distance (vec.normalize queryVec) stored)
  | none => (jsonVector s .l1 row).map (ranking.cosineSimilarity queryVec)

/-- The exact similarities: those of the neighbours in the index, or of the client's vectors. -/
structure Similarity (V : Type) where
  queryVec : V
  distance : V → V → Rat
  similarity : V → V → Rat

/-- The store is one that calls leave, the query has a vector, and its neighbours are exact. -/
structure ExactStore (ranking : Ranking V) (exact : Similarity V) (query : String)
    (access : StoreAccess V) (s : StoreState V) : Prop where
  reachable : ReachableState s
  embedded : (access.env.embedOne.bind fun embed => embed query) = some exact.queryVec
  nearest : ∀ vec, s.vecExtension = some vec → ∀ count,
    IsNearest (exact.distance (vec.normalize exact.queryVec)) count (s.index .l1)
      (ranking.knn (vec.normalize exact.queryVec) count (s.index .l1))

/-- The client embeds the query, and scores each vector by its similarity. -/
structure ExactClient (env : RetrievalEnv V) (exact : Similarity V) (query : String)
    (entries : OrderedDict String (VaultEntry V)) : Prop where
  distinct : entries.keys.Nodup
  client : ∃ client, env.client = some client ∧ client.embedOne query = some exact.queryVec ∧
    ∀ vectors, client.similarity exact.queryVec vectors =
      some (vectors.map (exact.similarity exact.queryVec))

def Pool.Exact (env : RetrievalEnv V) (exact : Similarity V) (query : String) : Pool V → Prop
  | .nothing => True
  | .store access s | .vaultStore access s => ExactStore env.ranking exact query access s
  | .memory entries => ExactClient env exact query entries

/-! ## What is ranked, kept and eligible -/

section Stores

variable (ranking : Ranking V) (exact : Similarity V) (cone : ConeQuery) (boundaries : Cone)
  (keep : ToolStore.ToolSearchResult → Bool) (s : StoreState V)

/-- The rows at or above the threshold that a search of the store ranks. -/
def rankedRows (fetch : Nat) : List Hit :=
  let request : SearchRequest := ⟨cone.query, fetch, cone.minScore, boundaries, "l1"⟩
  match s.vecExtension with
  | some vec => nearHits ranking request vec exact.queryVec .l1 s
  | none => eligibleHits ranking request exact.queryVec .l1 s

/-- Of the first of them, those within the boundaries that are tested afterwards. -/
def keptRows (fetch : Nat) : List Hit :=
  (best Prod.snd fetch (rankedRows ranking exact cone boundaries s fetch)).filter fun hit =>
    keep (makeSearchResult hit)

/-- The tools of a store that should be found, each by its head of `main`. -/
def eligibleRows : List ToolRow :=
  s.tools.rows.filter fun row =>
    IsMainHead row ∧ coneWhere boundaries s row ∧
      ∃ score ∈ rowSimilarity ranking exact.distance exact.queryVec s row,
        cone.minScore ≤ score ∧ keep (makeSearchResult (row, score)) = true

end Stores

section Memory

variable (exact : Similarity V) (cone : ConeQuery) (keep : ToolStore.ToolSearchResult → Bool)
  (entries : OrderedDict String (VaultEntry V))

/-- The results of the entries with a vector, at or above the threshold. -/
def scoredEntries : List ToolStore.ToolSearchResult :=
  (entries.filterMap fun item => item.2.embedding.map fun vector =>
    memoryResult item.1 item.2 (exact.similarity exact.queryVec vector)).filter fun found =>
      cone.minScore ≤ found.score

/-- Of the first that are neither excluded nor hot, those within the other boundaries. -/
def keptEntries (fetch : Nat) : List ToolStore.ToolSearchResult :=
  (best ToolStore.ToolSearchResult.score fetch
    (scoredEntries exact cone (findable cone.excludeNames entries))).filter keep

/-- The tools of the vault that should be found. -/
def eligibleEntries : List ToolStore.ToolSearchResult :=
  (scoredEntries exact cone entries).filter fun found =>
    found.toolName ∉ cone.excludeNames ∧ keep found = true

end Memory

/-! ## The claim and its condition -/

/-- As many tools as are asked for, or all that are eligible, each once and in the order of their
scores. -/
structure RetrievesEligible (topK : Int) (eligible : List String)
    (results : List ToolStore.ToolSearchResult) : Prop where
  count : (results.length : Int) = min topK eligible.length
  falling : results.Pairwise fun first second => second.score ≤ first.score
  distinct : (results.map ToolStore.ToolSearchResult.toolName).Nodup
  eligible : results.map ToolStore.ToolSearchResult.toolName ⊆ eligible

/-- The first rows that are kept are of different tools, all eligible, and there are enough of them
or all eligible tools are among them. -/
structure RowsSuffice (ranking : Ranking V) (exact : Similarity V) (cone : ConeQuery)
    (boundaries : Cone) (keep : ToolStore.ToolSearchResult → Bool) (s : StoreState V)
    (count : Nat) : Prop where
  distinct : (((keptRows ranking exact cone boundaries keep s (count * 2)).take count).map
    fun hit => hit.1.toolName).Nodup
  others : ∀ hit ∈ (keptRows ranking exact cone boundaries keep s (count * 2)).take count,
    ¬IsMainHead hit.1 →
      hit.1.toolName ∈ (eligibleRows ranking exact cone boundaries keep s).map ToolRow.toolName
  enough : count ≤ (keptRows ranking exact cone boundaries keep s (count * 2)).length ∨
    (eligibleRows ranking exact cone boundaries keep s).map ToolRow.toolName ⊆
      (keptRows ranking exact cone boundaries keep s (count * 2)).map fun hit => hit.1.toolName

/-- Enough entries are kept, or all eligible ones. -/
def EntriesSuffice (exact : Similarity V) (cone : ConeQuery)
    (keep : ToolStore.ToolSearchResult → Bool) (entries : OrderedDict String (VaultEntry V))
    (count : Nat) : Prop :=
  count ≤ (keptEntries exact cone keep entries (count * 2)).length ∨
    eligibleEntries exact cone keep entries ⊆ keptEntries exact cone keep entries (count * 2)

namespace Pool

variable (env : RetrievalEnv V) (exact : Similarity V) (cone : ConeQuery)

/-- The names of the eligible tools. -/
def eligible (pool : Pool V) : List String :=
  match pool with
  | .nothing => []
  | .store _ s | .vaultStore _ s =>
      (eligibleRows env.ranking exact cone (pool.boundaries cone) (pool.keeps cone) s).map
        ToolRow.toolName
  | .memory entries =>
      (eligibleEntries exact cone (pool.keeps cone) entries).map ToolStore.ToolSearchResult.toolName

def Suffices (count : Nat) (pool : Pool V) : Prop :=
  match pool with
  | .nothing => True
  | .store _ s | .vaultStore _ s =>
      RowsSuffice env.ranking exact cone (pool.boundaries cone) (pool.keeps cone) s count
  | .memory entries => EntriesSuffice exact cone (pool.keeps cone) entries count

end Pool

/-! ## The first that are kept -/

section

variable {ranking : Ranking V} {exact : Similarity V} {cone : ConeQuery} {boundaries : Cone}
  {keep : ToolStore.ToolSearchResult → Bool} {s : StoreState V} {access : StoreAccess V}
  {entries : OrderedDict String (VaultEntry V)} {env : RetrievalEnv V} {count fetch : Nat}

theorem retrievesEligible_take_iff {kept : List ToolStore.ToolSearchResult}
    {eligible : List String} (distinctNames : eligible.Nodup)
    (falling : kept.Pairwise fun first second => second.score ≤ first.score) :
    RetrievesEligible (Int.ofNat count) eligible (kept.take count) ↔
      ((kept.take count).map ToolStore.ToolSearchResult.toolName).Nodup ∧
        (kept.take count).map ToolStore.ToolSearchResult.toolName ⊆ eligible ∧
        (count ≤ kept.length ∨ eligible ⊆ kept.map ToolStore.ToolSearchResult.toolName) := by
  have counted : ((kept.take count).length : Int) = min (Int.ofNat count) eligible.length ↔
      (kept.take count).length = min count eligible.length := by
    rw [Int.ofNat_eq_natCast, ← Nat.cast_min, Nat.cast_inj]
  constructor
  · rintro ⟨same, -, distinct, inside⟩
    exact ⟨distinct, inside,
      (length_take_eq_min_iff count distinctNames distinct inside).mp (counted.mp same)⟩
  · rintro ⟨distinct, inside, enough⟩
    exact ⟨counted.mpr ((length_take_eq_min_iff count distinctNames distinct inside).mpr enough),
      falling.sublist (List.take_sublist _ _), distinct, inside⟩

theorem best_pairwise {α : Type} {score : α → Rat} {given : List α} (p : α → Bool) :
    ((best score fetch given).filter p).Pairwise fun first second => score second ≤ score first :=
  byScore_pairwise.sublist (List.filter_sublist.trans (List.take_sublist _ _))

/-! ## Over a store -/

theorem orFirstLevel_l1 (rows : VecLevel → List Hit) : orFirstLevel .l1 rows = rows .l1 :=
  if_neg fun second => nomatch second.2

/-- The hits of a search whose query has a vector. -/
theorem searchHits_eq (embedded : (access.env.embedOne.bind fun embed => embed cone.query) =
    some exact.queryVec) :
    searchHits ranking access.env ⟨cone.query, fetch, cone.minScore, boundaries, "l1"⟩ s =
      best Prod.snd fetch (rankedRows ranking exact cone boundaries s fetch) := by
  have first : SearchRequest.level ⟨cone.query, fetch, cone.minScore, boundaries, "l1"⟩ = .l1 :=
    if_neg (show ¬("l1" = "l2") by decide)
  unfold searchHits rankedRows
  dsimp only
  rw [embedded]
  cases s.vecExtension with
  | none =>
      dsimp only
      rw [jsonSearch, first, orFirstLevel_l1]
      rfl
  | some vec =>
      dsimp only
      rw [vec0Search, first, orFirstLevel_l1]
      rfl

/-- A ranked row is within the boundaries of the search, with its similarity. -/
theorem of_mem_rankedRows (isExact : ExactStore ranking exact cone.query access s) {hit : Hit}
    (member : hit ∈ rankedRows ranking exact cone boundaries s fetch) :
    hit.1 ∈ s.tools.rows ∧ coneWhere boundaries s hit.1 ∧
      rowSimilarity ranking exact.distance exact.queryVec s hit.1 = some hit.2 ∧
      cone.minScore ≤ hit.2 := by
  unfold rankedRows at member
  dsimp only at member
  unfold rowSimilarity
  cases extension : s.vecExtension with
  | none =>
      rw [extension] at member
      obtain ⟨isRow, high⟩ := List.mem_filter.mp member
      obtain ⟨⟨here, inside⟩, vector, isVector, score⟩ := mem_jsonRows_iff.mp isRow
      refine ⟨here, inside, ?_, by simpa using high⟩
      rw [isVector, score]
      rfl
  | some vec =>
      rw [extension] at member
      obtain ⟨isRow, high⟩ := List.mem_filter.mp member
      obtain ⟨⟨row, length⟩, isNear, rfl⟩ := List.mem_map.mp isRow
      obtain ⟨⟨here, inside⟩, found⟩ := mem_vec0Rows_iff.mp isNear
      refine ⟨here, inside, ?_, by simpa using high⟩
      obtain ⟨chosen, rest, perm, near, -⟩ := isExact.nearest vec extension _
      rw [near] at found
      obtain ⟨⟨id, stored⟩, isChosen, same⟩ := List.mem_map.mp found
      obtain ⟨sameId, sameLength⟩ := Prod.mk.inj same
      dsimp only at sameId sameLength
      subst sameId
      have entry := perm.mem_iff.mpr (List.mem_append_left rest isChosen)
      dsimp only
      rw [OrderedDict.lookup_eq_some_of_mem (isExact.reachable.indexKeyed.index .l1) entry,
        Option.map_some, sameLength]

/-- A tool has one head on `main`. -/
theorem nodup_eligibleRows (reach : ReachableState s) :
    ((eligibleRows ranking exact cone boundaries keep s).map ToolRow.toolName).Nodup := by
  refine (s.tools.nodup.filter _).map_on fun first hfirst second hsecond same => ?_
  obtain ⟨here, inside⟩ := List.mem_filter.mp hfirst
  obtain ⟨here', inside'⟩ := List.mem_filter.mp hsecond
  obtain ⟨head, -⟩ := of_decide_eq_true inside
  obtain ⟨head', -⟩ := of_decide_eq_true inside'
  exact reach.wellFormed.heads first here second here' head.2 head'.2
    ⟨same.symm, head'.1.trans head.1.symm⟩

/-- A row that is kept and a head of `main` is an eligible tool. -/
theorem mem_eligibleRows_of_kept (isExact : ExactStore ranking exact cone.query access s)
    {hit : Hit} (member : hit ∈ keptRows ranking exact cone boundaries keep s fetch)
    (head : IsMainHead hit.1) : hit.1 ∈ eligibleRows ranking exact cone boundaries keep s := by
  obtain ⟨isBest, kept⟩ := List.mem_filter.mp member
  obtain ⟨here, inside, similarity, high⟩ := of_mem_rankedRows isExact (mem_of_mem_best isBest)
  exact List.mem_filter.mpr
    ⟨here, decide_eq_true ⟨head, inside, hit.2, similarity, high, kept⟩⟩

theorem retrievesEligible_rows_iff (isExact : ExactStore ranking exact cone.query access s) :
    RetrievesEligible (Int.ofNat count)
        ((eligibleRows ranking exact cone boundaries keep s).map ToolRow.toolName)
        (((keptRows ranking exact cone boundaries keep s (count * 2)).map
          makeSearchResult).take count) ↔
      RowsSuffice ranking exact cone boundaries keep s count := by
  have falling : ((keptRows ranking exact cone boundaries keep s (count * 2)).map
      makeSearchResult).Pairwise fun first second => second.score ≤ first.score :=
    List.pairwise_map.mpr (best_pairwise _)
  rw [retrievesEligible_take_iff (nodup_eligibleRows isExact.reachable) falling,
    List.length_map, ← List.map_take, List.map_map, List.map_map]
  constructor
  · rintro ⟨distinct, inside, enough⟩
    exact ⟨distinct, fun hit member _ => inside (List.mem_map_of_mem member), enough⟩
  · rintro ⟨distinct, others, enough⟩
    refine ⟨distinct, fun name member => ?_, enough⟩
    obtain ⟨hit, isFirst, rfl⟩ := List.mem_map.mp member
    by_cases head : IsMainHead hit.1
    · exact List.mem_map_of_mem
        (mem_eligibleRows_of_kept isExact (List.mem_of_mem_take isFirst) head)
    · exact others hit isFirst head

/-! ## Over the entries of a vault -/

/-- The entries with a vector, each with its vector. -/
def embedded (entries : OrderedDict String (VaultEntry V)) :
    List ((String × VaultEntry V) × V) :=
  entries.filterMap fun item => item.2.embedding.map fun vector => (item, vector)

theorem scoredEntries_eq (entries : OrderedDict String (VaultEntry V)) :
    scoredEntries exact cone entries =
      ((embedded entries).map fun candidate => memoryResult candidate.1.1 candidate.1.2
        (exact.similarity exact.queryVec candidate.2)).filter fun found =>
          cone.minScore ≤ found.score := by
  rw [scoredEntries, embedded, List.map_filterMap]
  simp only [Option.map_map, Function.comp_def]

theorem memoryVectorSearch_eq {client : SimilarityClient V}
    (scores : ∀ vectors, client.similarity exact.queryVec vectors =
      some (vectors.map (exact.similarity exact.queryVec)))
    (exclude : List String) (entries : OrderedDict String (VaultEntry V)) :
    memoryVectorSearch client exact.queryVec (Int.ofNat fetch) cone.minScore exclude entries =
      some (best ToolStore.ToolSearchResult.score fetch
        (scoredEntries exact cone (findable exclude entries))) := by
  rw [scoredEntries_eq]
  unfold memoryVectorSearch embedded
  dsimp only
  generalize (findable exclude entries).filterMap (fun item =>
    item.2.embedding.map fun vector => (item, vector)) = candidates
  split
  · exact congrArg some List.take_nil.symm
  · rw [scores, Option.map_some, List.map_map, List.zip_map', List.filter_map, List.map_map,
      List.filter_map]
    rfl

/-- The search of the entries, before its results are cut. -/
theorem memorySearch_eq (isExact : ExactClient env exact cone.query entries) :
    memorySearch env cone.query (Int.ofNat fetch) cone.minScore cone.excludeNames entries =
      some (best ToolStore.ToolSearchResult.score fetch
        (scoredEntries exact cone (findable cone.excludeNames entries))) := by
  obtain ⟨client, isClient, isVector, scores⟩ := isExact.client
  unfold memorySearch
  rw [isClient]
  dsimp only
  rw [isVector]
  exact memoryVectorSearch_eq scores cone.excludeNames entries

theorem names_scoredEntries_sublist (entries : OrderedDict String (VaultEntry V)) :
    ((scoredEntries exact cone entries).map ToolStore.ToolSearchResult.toolName).Sublist
      entries.keys := by
  have scored : ((entries.filterMap fun item => item.2.embedding.map fun vector =>
      memoryResult item.1 item.2 (exact.similarity exact.queryVec vector)).map
        ToolStore.ToolSearchResult.toolName).Sublist entries.keys := by
    induction entries with
    | nil => exact List.Sublist.slnil
    | cons item rest ih =>
        rw [List.filterMap_cons]
        cases item.2.embedding with
        | none => exact ih.cons _
        | some vector => exact ih.cons_cons _
  exact (List.filter_sublist.map _).trans scored

theorem mem_eligibleEntries_of_kept {found : ToolStore.ToolSearchResult}
    (member : found ∈ keptEntries exact cone keep entries fetch) :
    found ∈ eligibleEntries exact cone keep entries := by
  obtain ⟨isBest, kept⟩ := List.mem_filter.mp member
  obtain ⟨isScored, high⟩ := List.mem_filter.mp (mem_of_mem_best isBest)
  obtain ⟨item, isItem, scored⟩ := List.mem_filterMap.mp isScored
  obtain ⟨here, notExcluded⟩ := List.mem_filter.mp isItem
  obtain ⟨vector, -, rfl⟩ := Option.map_eq_some_iff.mp scored
  exact List.mem_filter.mpr ⟨List.mem_filter.mpr ⟨List.mem_filterMap.mpr ⟨item, here, scored⟩, high⟩,
    decide_eq_true ⟨(of_decide_eq_true notExcluded).1, kept⟩⟩

theorem retrievesEligible_entries_iff (distinct : entries.keys.Nodup) :
    RetrievesEligible (Int.ofNat count)
        ((eligibleEntries exact cone keep entries).map ToolStore.ToolSearchResult.toolName)
        ((keptEntries exact cone keep entries (count * 2)).take count) ↔
      EntriesSuffice exact cone keep entries count := by
  have names : ((scoredEntries exact cone entries).map
      ToolStore.ToolSearchResult.toolName).Nodup :=
    distinct.sublist (names_scoredEntries_sublist entries)
  have eligibleNames : ((eligibleEntries exact cone keep entries).map
      ToolStore.ToolSearchResult.toolName).Nodup :=
    names.sublist (List.filter_sublist.map _)
  have keptNames : ((keptEntries exact cone keep entries (count * 2)).map
      ToolStore.ToolSearchResult.toolName).Nodup := by
    refine List.Nodup.sublist (List.filter_sublist.map _) ?_
    refine List.Nodup.sublist ((List.take_sublist _ _).map _) ?_
    rw [(byScore_perm.map _).nodup_iff]
    exact distinct.sublist ((names_scoredEntries_sublist _).trans (List.filter_sublist.map _))
  have falling : (keptEntries exact cone keep entries (count * 2)).Pairwise
      fun first second => second.score ≤ first.score := best_pairwise keep
  rw [retrievesEligible_take_iff eligibleNames falling]
  have inside : keptEntries exact cone keep entries (count * 2) ⊆
      eligibleEntries exact cone keep entries := fun found => mem_eligibleEntries_of_kept
  constructor
  · rintro ⟨-, -, enough⟩
    refine enough.imp_right fun all found member => ?_
    obtain ⟨kept, isKept, same⟩ := List.mem_map.mp (all (List.mem_map_of_mem member))
    rw [← List.inj_on_of_nodup_map eligibleNames (inside isKept) member same]
    exact isKept
  · intro enough
    refine ⟨keptNames.sublist ((List.take_sublist _ _).map _), ?_,
      enough.imp_right fun all => List.map_subset _ all⟩
    exact List.map_subset _ fun found member => inside (List.mem_of_mem_take member)

/-! ## The retrieval -/

/-- What is kept of the results of a search, in order. -/
def Pool.kept (env : RetrievalEnv V) (exact : Similarity V) (cone : ConeQuery) (fetch : Nat)
    (pool : Pool V) : List ToolStore.ToolSearchResult :=
  match pool with
  | .nothing => []
  | .store _ s | .vaultStore _ s =>
      (keptRows env.ranking exact cone (pool.boundaries cone) (pool.keeps cone) s fetch).map
        makeSearchResult
  | .memory entries => keptEntries exact cone (pool.keeps cone) entries fetch

theorem fetchK_ofNat (count : Nat) :
    ConeRetriever.fetchK (Int.ofNat count) = Int.ofNat (count * 2) := by
  unfold ConeRetriever.fetchK
  split
  · rfl
  · rename_i none
    have zero : count = 0 := by simpa using none
    rw [zero]

theorem searchConeTo_eq (works : access.raises = false)
    (isExact : ExactStore ranking exact cone.query access s) :
    searchConeTo ranking access cone.query (Int.ofNat fetch) cone.minScore boundaries s =
      some ((best Prod.snd fetch (rankedRows ranking exact cone boundaries s fetch)).map
        makeSearchResult) := by
  unfold searchConeTo
  rw [works]
  dsimp only
  rw [searchCone, searchHits_eq isExact.embedded]
  rfl

/-- The results of a vault within the other boundaries, before they are cut. -/
theorem retrieveViaVault_eq {vault : SearchableVault V} (isCount : cone.topK = Int.ofNat count)
    (isExact : (Pool.ofVault env (some vault)).Exact env exact cone.query) :
    (ConeRetriever.retrieveViaVault env cone vault).filter (fun found =>
        permissionsSatisfied found.requiredPermissions cone.grantedPermissions) =
      (Pool.ofVault env (some vault)).kept env exact cone (count * 2) := by
  have memory (isMemory : Pool.ofVault env (some vault) = .memory vault.entries)
      (searched : vault.search env cone.query (Int.ofNat (count * 2)) cone.minScore
        cone.excludeNames = memorySearch env cone.query (Int.ofNat (count * 2)) cone.minScore
          cone.excludeNames vault.entries) :
      (ConeRetriever.retrieveViaVault env cone vault).filter (fun found =>
          permissionsSatisfied found.requiredPermissions cone.grantedPermissions) =
        (Pool.ofVault env (some vault)).kept env exact cone (count * 2) := by
    rw [isMemory] at isExact ⊢
    unfold ConeRetriever.retrieveViaVault
    rw [isCount, fetchK_ofNat, searched, memorySearch_eq isExact]
    exact List.filter_filter
  cases attached : vault.attachedStore with
  | none =>
      refine memory (Pool.ofVault_memory (.inl attached)) ?_
      unfold SearchableVault.search
      rw [attached]
      rfl
  | some s =>
      cases raises : env.vault.raises with
      | true =>
          refine memory (Pool.ofVault_memory (.inr raises)) ?_
          unfold SearchableVault.search
          rw [attached, Option.bind_some, searchConeTo, if_pos raises]
      | false =>
          rw [Pool.ofVault_store attached raises] at isExact ⊢
          unfold ConeRetriever.retrieveViaVault SearchableVault.search
          rw [isCount, fetchK_ofNat, attached, Option.bind_some, searchConeTo_eq raises isExact]
          dsimp only
          rw [List.filter_filter, List.filter_map]
          rfl

/-- The results of a retriever within all boundaries, before they are cut. -/
theorem retrieve_eq (retriever : ConeRetriever V) (isCount : cone.topK = Int.ofNat count)
    (isExact : (Pool.ofRetriever env retriever).Exact env exact cone.query) :
    retriever.retrieve env cone =
      ((Pool.ofRetriever env retriever).kept env exact cone (count * 2)).take count := by
  have vaultOnly (fallsBack : retriever.store = none ∨ env.cone.raises = true) :
      ((match retriever.vault with
        | none => []
        | some vault => ConeRetriever.retrieveViaVault env cone vault).filter fun found =>
          permissionsSatisfied found.requiredPermissions cone.grantedPermissions) =
        (Pool.ofRetriever env retriever).kept env exact cone (count * 2) := by
    rw [Pool.ofRetriever_vault fallsBack] at isExact ⊢
    cases present : retriever.vault with
    | none => rfl
    | some vault =>
        rw [present] at isExact
        exact retrieveViaVault_eq isCount isExact
  unfold ConeRetriever.retrieve
  dsimp only
  rw [isCount]
  refine congrArg (List.take count) ?_
  cases store : retriever.store with
  | none => exact vaultOnly (.inl store)
  | some s =>
      cases raises : env.cone.raises with
      | true =>
          have failed (boundaries : Cone) : searchConeTo env.ranking env.cone cone.query
              (ConeRetriever.fetchK cone.topK) cone.minScore boundaries s = none :=
            if_pos raises
          refine (congrArg (List.filter _) ?_).trans (vaultOnly (.inr raises))
          dsimp only
          cases retriever.vault with
          | none => simp only [ConeRetriever.retrieveViaStore, failed]
          | some vault => simp only [ConeRetriever.retrieveViaStore, failed]
      | false =>
          rw [Pool.ofRetriever_store store raises] at isExact ⊢
          unfold ConeRetriever.retrieveViaStore
          dsimp only
          rw [isCount, fetchK_ofNat, searchConeTo_eq raises isExact]
          dsimp only
          rw [List.filter_map]
          refine congrArg (List.map makeSearchResult) (List.filter_congr fun hit _ => ?_)
          exact (Bool.and_true _).symm

/--
With exact similarities, a retrieval returns as many eligible tools as there are, up to
the number it is asked for, exactly if enough of them are among the first that are
searched, before other rows of the same tools.
-/
theorem retrievesEligible_iff (env : RetrievalEnv V) (exact : Similarity V) (cone : ConeQuery)
    (retriever : ConeRetriever V)
    (isExact : (Pool.ofRetriever env retriever).Exact env exact cone.query) :
    RetrievesEligible cone.topK ((Pool.ofRetriever env retriever).eligible env exact cone)
        (retriever.retrieve env cone) ↔
      0 ≤ cone.topK ∧
        (Pool.ofRetriever env retriever).Suffices env exact cone cone.topK.toNat := by
  cases isCount : cone.topK with
  | negSucc less =>
      refine iff_of_false (fun retrieves => ?_) fun meets => absurd meets.1 (by omega)
      have counted := retrieves.count
      omega
  | ofNat count =>
      have nonneg : 0 ≤ Int.ofNat count := Int.natCast_nonneg count
      rw [retrieve_eq retriever isCount isExact, and_iff_right nonneg]
      generalize Pool.ofRetriever env retriever = pool at isExact ⊢
      cases pool with
      | nothing =>
          refine iff_of_true ?_ trivial
          rw [show Pool.kept env exact cone (count * 2) .nothing = [] from rfl, List.take_nil]
          exact ⟨(min_eq_right nonneg).symm, List.Pairwise.nil, List.nodup_nil, List.Subset.refl _⟩
      | store access s => exact retrievesEligible_rows_iff isExact
      | vaultStore access s => exact retrievesEligible_rows_iff isExact
      | memory entries => exact retrievesEligible_entries_iff isExact.distinct

end

/-! ## Tools that crowd another out -/

/-- A tool with a vector, in a vault. -/
def heldTool (name : String) (requiredPermissions : List String) : String × VaultEntry Unit :=
  (name, { plainEntry "1.0.0" with
    toolName := name, tier := .cold, embedding := some (), requiredPermissions })

/-- A vault in memory with two tools that ask for a permission, and one that asks for none. -/
def crowdedVault : ConeRetriever Unit where
  vault := some
    { entries := [heldTool "first" ["net"], heldTool "second" ["net"], heldTool "third" []]
      store := StoreState.empty none
      persistent := false }

/-- A client for which all vectors are alike. -/
def unitClient : SimilarityClient Unit :=
  ⟨fun _ => some (), fun _ vectors => some (vectors.map fun _ => 1)⟩

def unitEnv : RetrievalEnv Unit where
  ranking := unitRanking
  cone := ⟨atTime 1, false⟩
  vault := ⟨atTime 1, false⟩
  client := some unitClient

def alike : Similarity Unit := ⟨(), fun _ _ => 0, fun _ _ => 1⟩

/-- So many tools for an agent without permissions. -/
def withoutPermissions (topK : Int) : ConeQuery where
  query := "tool"
  grantedPermissions := some []
  topK := topK

theorem exact_crowdedVault (topK : Int) :
    (Pool.ofRetriever unitEnv crowdedVault).Exact unitEnv alike
      (withoutPermissions topK).query where
  distinct := by decide
  client := ⟨unitClient, rfl, rfl, fun _ => rfl⟩

/-- Two are asked for, and four searched. -/
theorem retrievesEligible_iff_crowded :
    RetrievesEligible 2
        ((Pool.ofRetriever unitEnv crowdedVault).eligible unitEnv alike (withoutPermissions 2))
        (crowdedVault.retrieve unitEnv (withoutPermissions 2)) ↔
      (0 : Int) ≤ 2 ∧
        (Pool.ofRetriever unitEnv crowdedVault).Suffices unitEnv alike (withoutPermissions 2) 2 :=
  retrievesEligible_iff unitEnv alike (withoutPermissions 2) crowdedVault (exact_crowdedVault 2)

/-- One is asked for, and the two that are searched are not permitted. -/
theorem not_retrievesEligible_crowded :
    (Pool.ofRetriever unitEnv crowdedVault).Exact unitEnv alike (withoutPermissions 1).query ∧
      ¬RetrievesEligible 1
        ((Pool.ofRetriever unitEnv crowdedVault).eligible unitEnv alike (withoutPermissions 1))
        (crowdedVault.retrieve unitEnv (withoutPermissions 1)) := by
  refine ⟨exact_crowdedVault 1, fun retrieves => ?_⟩
  have counted := retrieves.count
  revert counted
  decide +kernel

end YouMi.Mcp

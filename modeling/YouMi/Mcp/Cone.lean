import YouMi.Mcp.AuditGate
import YouMi.Mcp.Vault
import YouMi.Mcp.ToolStore.Search
import YouMi.Mcp.ToolStore.VersionChains

/-!
# Cone retrieval

`ConeRetriever` finds tools in a tool store, or in a vault where there is no store or its
search raises, and leaves out what is outside the cone of a query.  Permissions belong to
the agent that asks, so they are tested last on either way.  The statistics of a retrieval
are left out.
-/

namespace YouMi.Mcp

open YouMi.Core YouMi.Library YouMi.Mcp.ToolStore

/-- `items[:stop]`; below zero, so many items are left out at the end. -/
def sliceTo {α : Type} (stop : Int) (items : List α) : List α :=
  match stop with
  | .ofNat count => items.take count
  | .negSucc count => items.take (items.length - (count + 1))

theorem sliceTo_sublist {α : Type} (stop : Int) (items : List α) :
    (sliceTo stop items).Sublist items := by
  cases stop <;> exact List.take_sublist _ _

theorem sliceTo_of_nonneg {α : Type} {stop : Int} (nonneg : 0 ≤ stop) (items : List α) :
    sliceTo stop items = items.take stop.toNat := by
  cases stop with
  | ofNat count => rfl
  | negSucc count => omega

theorem sliceTo_map {α β : Type} (stop : Int) (f : α → β) (items : List α) :
    sliceTo stop (items.map f) = (sliceTo stop items).map f := by
  cases stop with
  | ofNat count => exact List.map_take.symm
  | negSucc count =>
      unfold sliceTo
      rw [List.length_map, List.map_take]

/-- Empty lists of tags, names and version chains set no boundary. -/
structure ConeQuery where
  query : String
  tags : List String := []
  riskCeiling : String := "critical"
  /-- Nothing: permissions set no boundary. -/
  grantedPermissions : Option (List String) := none
  excludeNames : List String := []
  excludeLineages : List String := []
  topK : Int := 5
  minScore : Rat := 3 / 10

/-- `set(required) <= granted`. -/
def permissionsSatisfied (required : List String) (granted : Option (List String)) : Bool :=
  match granted with
  | none => true
  | some granted => required.all fun permission => permission ∈ granted

/-- A vault, with the store behind it if it is `persistent` and in memory only if not. -/
structure SearchableVault (V : Type) extends ToolVault V where
  persistent : Bool

def SearchableVault.attachedStore {V : Type} (vault : SearchableVault V) :
    Option (StoreState V) :=
  if vault.persistent then some vault.store else none

structure ConeRetriever (V : Type) where
  vault : Option (SearchableVault V) := none
  store : Option (StoreState V) := none

/-- The client of a vault; nothing where it raises. -/
structure SimilarityClient (V : Type) where
  embedOne : String → Option V
  similarity : V → List V → Option (List Rat)

/-- A store at the time it is searched. -/
structure StoreAccess (V : Type) where
  env : Env V
  raises : Bool := false

/-- What a retrieval meets outside. -/
structure RetrievalEnv (V : Type) where
  ranking : Ranking V
  /-- For the store of the retriever. -/
  cone : StoreAccess V
  /-- For the store behind the vault. -/
  vault : StoreAccess V
  client : Option (SimilarityClient V)

variable {V : Type}

/-! ## Search in the store -/

/-- `search_cone`; the index raises for a number of neighbours below zero. -/
def searchConeTo (ranking : Ranking V) (access : StoreAccess V) (query : String) (topK : Int)
    (minScore : Rat) (cone : Cone) (s : StoreState V) :
    Option (List ToolStore.ToolSearchResult) :=
  if access.raises then none
  else
    match topK with
    | .ofNat count => some (searchCone ranking access.env ⟨query, count, minScore, cone, "l1"⟩ s)
    | .negSucc _ =>
        let embedded := (access.env.embedOne.bind fun embed => embed query).isSome
        if embedded && s.vecExtension.isSome then none
        else
          let request := ⟨query, s.tools.rows.length, minScore, cone, "l1"⟩
          some (sliceTo topK (searchCone ranking access.env request s))

/-! ## Search in the vault -/

def memoryResult (name : String) (entry : VaultEntry V) (score : Rat) :
    ToolStore.ToolSearchResult where
  toolName := name
  definition := entry.definition
  score := score
  summary := entry.summary
  riskLevel := entry.riskLevel
  requiredPermissions := entry.requiredPermissions
  lineageId := orElse entry.lineageId entry.toolName

/-- The entries that may be found: neither excluded nor hot. -/
def findable (exclude : List String) (entries : OrderedDict String (VaultEntry V)) :
    List (String × VaultEntry V) :=
  entries.filter fun item => item.1 ∉ exclude ∧ item.2.tier ≠ .hot

def bestResults (topK : Int) (results : List ToolStore.ToolSearchResult) :
    List ToolStore.ToolSearchResult :=
  sliceTo topK (results.insertionSort fun first second => second.score ≤ first.score)

/-- The share of the query's tokens that the text has. -/
def overlapScore (lower : String → String) (query text : String) : Rat :=
  let queryTokens := tokens (lower query)
  let overlap := queryTokens.filter fun token => token ∈ tokens (lower text)
  (overlap.length : Rat) / (max queryTokens.length 1 : Nat)

/-- `_keyword_search` of the vault. -/
def memoryKeywordSearch (lower : String → String) (query : String) (topK : Int)
    (exclude : List String) (entries : OrderedDict String (VaultEntry V)) :
    List ToolStore.ToolSearchResult :=
  let scored := (findable exclude entries).map fun item =>
    (item, overlapScore lower query
      (item.1 ++ " " ++ item.2.definition.description ++ " " ++ item.2.summary))
  bestResults topK ((scored.filter fun hit => 0 < hit.2).map fun hit =>
    memoryResult hit.1.1 hit.1.2 (min hit.2 1))

/-- The entries with a vector, by the similarity of their vectors to that of the query. -/
def memoryVectorSearch (client : SimilarityClient V) (queryVec : V) (topK : Int) (minScore : Rat)
    (exclude : List String) (entries : OrderedDict String (VaultEntry V)) :
    Option (List ToolStore.ToolSearchResult) :=
  let candidates := (findable exclude entries).filterMap fun item =>
    item.2.embedding.map fun vector => (item, vector)
  match candidates with
  | [] => some []
  | _ =>
      (client.similarity queryVec (candidates.map Prod.snd)).map fun scores =>
        let scored := (candidates.map Prod.fst).zip scores
        bestResults topK ((scored.filter fun hit => minScore ≤ hit.2).map fun hit =>
          memoryResult hit.1.1 hit.1.2 hit.2)

def memorySearch (env : RetrievalEnv V) (query : String) (topK : Int) (minScore : Rat)
    (exclude : List String) (entries : OrderedDict String (VaultEntry V)) :
    Option (List ToolStore.ToolSearchResult) :=
  match env.client with
  | none => some (memoryKeywordSearch env.ranking.lower query topK exclude entries)
  | some client =>
      match client.embedOne query with
      | none => some (memoryKeywordSearch env.ranking.lower query topK exclude entries)
      | some queryVec => memoryVectorSearch client queryVec topK minScore exclude entries

/-- `ToolVault.search`: the store is asked first; nothing where the search raises. -/
def SearchableVault.search (env : RetrievalEnv V) (query : String) (topK : Int) (minScore : Rat)
    (exclude : List String) (vault : SearchableVault V) :
    Option (List ToolStore.ToolSearchResult) :=
  let stored := vault.attachedStore.bind fun s =>
    searchConeTo env.ranking env.vault query topK minScore ⟨exclude, [], [], "critical"⟩ s
  match stored with
  | some results => some results
  | none => memorySearch env query topK minScore exclude vault.entries

/-! ## The retriever -/

namespace ConeRetriever

/-- Twice as many as are asked for, as some are left out later. -/
def fetchK (topK : Int) : Int := if 0 < topK then topK * 2 else topK

/-- `_retrieve_via_vault`: tags set no boundary here. -/
def retrieveViaVault (env : RetrievalEnv V) (cone : ConeQuery) (vault : SearchableVault V) :
    List ToolStore.ToolSearchResult :=
  match vault.search env cone.query (fetchK cone.topK) cone.minScore cone.excludeNames with
  | none => []
  | some results =>
      results.filter fun found =>
        riskRank found.riskLevel ≤ riskRank cone.riskCeiling ∧
          orElse found.lineageId found.toolName ∉ cone.excludeLineages

/-- `_retrieve_via_store`: the vault is asked where the store raises. -/
def retrieveViaStore (env : RetrievalEnv V) (cone : ConeQuery)
    (vault : Option (SearchableVault V)) (s : StoreState V) : List ToolStore.ToolSearchResult :=
  let boundaries := ⟨cone.excludeNames, cone.excludeLineages, cone.tags, cone.riskCeiling⟩
  match searchConeTo env.ranking env.cone cone.query (fetchK cone.topK) cone.minScore boundaries s with
  | some results => results
  | none =>
      match vault with
      | none => []
      | some vault => retrieveViaVault env cone vault

def retrieve (env : RetrievalEnv V) (cone : ConeQuery) (retriever : ConeRetriever V) :
    List ToolStore.ToolSearchResult :=
  let results :=
    match retriever.store with
    | some s => retrieveViaStore env cone retriever.vault s
    | none =>
        match retriever.vault with
        | none => []
        | some vault => retrieveViaVault env cone vault
  sliceTo cone.topK (results.filter fun found =>
    permissionsSatisfied found.requiredPermissions cone.grantedPermissions)

end ConeRetriever

/-! ## What is inside of the cone -/

/-- A result as the gate is shown it. -/
def asCandidate (found : ToolStore.ToolSearchResult) : ToolSearchResult where
  toolName := found.toolName
  definition := some found.definition
  summary := found.summary
  riskLevel := found.riskLevel
  requiredPermissions := found.requiredPermissions
  lineageId := found.lineageId

/-- The tool is within the boundaries of name, version chain, risk and permissions. -/
structure ConeQuery.Admits (cone : ConeQuery) (found : ToolSearchResult) : Prop where
  named : found.toolName ∉ cone.excludeNames
  inactive : orElse found.lineageId found.toolName ∉ cone.excludeLineages
  risk : riskRank found.riskLevel ≤ riskRank cone.riskCeiling
  permitted : permissionsSatisfied found.requiredPermissions cone.grantedPermissions = true

theorem riskRank_orElse_low (riskLevel : String) :
    riskRank (orElse riskLevel "low") = riskRank riskLevel := by
  unfold orElse
  split
  · rename_i empty
    rw [empty]
    rfl
  · rfl

section Store

variable {ranking : Ranking V} {access : StoreAccess V} {request : SearchRequest}
  {cone : Cone} {s : StoreState V} {found : ToolStore.ToolSearchResult}

/-- Whatever is in the index, a search returns rows of its cone. -/
theorem coneWhere_of_mem_searchHits {env : Env V} {hit : Hit}
    (member : hit ∈ searchHits ranking env request s) :
    hit.1 ∈ s.tools.rows ∧ coneWhere request.cone s hit.1 := by
  unfold searchHits at member
  split at member
  · exact (keywordSearch_inCone ranking request s).inside _ (List.mem_map_of_mem member)
  · split at member
    · unfold vec0Search at member
      obtain ⟨near, isNear, rfl⟩ :=
        List.mem_map.mp ((scoredHits_subperm request _).subset member)
      unfold orFirstLevel at isNear
      have ranked (level : VecLevel) (queryVec : V)
          (isRow : near ∈ vec0Rows ranking request queryVec level s) :=
        coneWhere_of_eligible (mem_vec0Rows ranking request queryVec level isRow)
      split at isNear
      · exact ranked _ _ isNear
      · exact ranked _ _ isNear
    · exact (jsonSearch_inCone ranking request _ s).inside _ (List.mem_map_of_mem member)

theorem row_of_mem_searchConeTo {query : String} {topK : Int} {minScore : Rat}
    {results : List ToolStore.ToolSearchResult}
    (searched : searchConeTo ranking access query topK minScore cone s = some results)
    (member : found ∈ results) :
    ∃ hit : Hit, makeSearchResult hit = found ∧ hit.1 ∈ s.tools.rows ∧ coneWhere cone s hit.1 := by
  unfold searchConeTo at searched
  split at searched
  · cases searched
  · split at searched
    · cases searched
      obtain ⟨hit, isHit, rfl⟩ := List.mem_map.mp member
      exact ⟨hit, rfl, coneWhere_of_mem_searchHits isHit⟩
    · dsimp only at searched
      split at searched
      · cases searched
      · cases searched
        obtain ⟨hit, isHit, rfl⟩ := List.mem_map.mp ((sliceTo_sublist _ _).subset member)
        exact ⟨hit, rfl, coneWhere_of_mem_searchHits isHit⟩

end Store

section Memory

variable {exclude : List String} {entries : OrderedDict String (VaultEntry V)}
  {results : List ToolStore.ToolSearchResult} {found : ToolStore.ToolSearchResult}

/-- The result is that of an entry which may be found. -/
def OfEntry (exclude : List String) (entries : OrderedDict String (VaultEntry V))
    (found : ToolStore.ToolSearchResult) : Prop :=
  ∃ item ∈ findable exclude entries, ∃ score, found = memoryResult item.1 item.2 score

theorem mem_of_mem_bestResults {topK : Int} (member : found ∈ bestResults topK results) :
    found ∈ results :=
  (List.mem_insertionSort _).mp ((sliceTo_sublist _ _).subset member)

theorem ofEntry_of_mem_memoryKeywordSearch {lower : String → String} {query : String} {topK : Int}
    (member : found ∈ memoryKeywordSearch lower query topK exclude entries) :
    OfEntry exclude entries found := by
  unfold memoryKeywordSearch at member
  obtain ⟨hit, isHit, rfl⟩ := List.mem_map.mp (mem_of_mem_bestResults member)
  obtain ⟨item, isItem, rfl⟩ := List.mem_map.mp (List.mem_filter.mp isHit).1
  exact ⟨item, isItem, _, rfl⟩

theorem ofEntry_of_mem_memoryVectorSearch {client : SimilarityClient V} {queryVec : V} {topK : Int}
    {minScore : Rat}
    (searched : memoryVectorSearch client queryVec topK minScore exclude entries = some results)
    (member : found ∈ results) : OfEntry exclude entries found := by
  unfold memoryVectorSearch at searched
  dsimp only at searched
  split at searched
  · cases searched
    exact absurd member List.not_mem_nil
  · obtain ⟨scores, -, rfl⟩ := Option.map_eq_some_iff.mp searched
    obtain ⟨hit, isHit, rfl⟩ := List.mem_map.mp (mem_of_mem_bestResults member)
    have isFirst := (List.of_mem_zip (List.mem_filter.mp isHit).1).1
    obtain ⟨candidate, isCandidate, same⟩ := List.mem_map.mp isFirst
    obtain ⟨item, isItem, embedded⟩ := List.mem_filterMap.mp isCandidate
    obtain ⟨vector, -, rfl⟩ := Option.map_eq_some_iff.mp embedded
    refine ⟨item, isItem, hit.2, ?_⟩
    rw [← same]

theorem ofEntry_of_mem_memorySearch {env : RetrievalEnv V} {query : String} {topK : Int}
    {minScore : Rat}
    (searched : memorySearch env query topK minScore exclude entries = some results)
    (member : found ∈ results) : OfEntry exclude entries found := by
  unfold memorySearch at searched
  split at searched
  · cases searched
    exact ofEntry_of_mem_memoryKeywordSearch member
  · split at searched
    · cases searched
      exact ofEntry_of_mem_memoryKeywordSearch member
    · exact ofEntry_of_mem_memoryVectorSearch searched member

theorem not_mem_exclude_of_mem_search {env : RetrievalEnv V} {query : String} {topK : Int}
    {minScore : Rat} {vault : SearchableVault V}
    (searched : vault.search env query topK minScore exclude = some results)
    (member : found ∈ results) : found.toolName ∉ exclude := by
  unfold SearchableVault.search at searched
  dsimp only at searched
  split at searched
  · rename_i stored
    cases searched
    obtain ⟨s, -, searched⟩ := Option.bind_eq_some_iff.mp stored
    obtain ⟨hit, rfl, -, inside⟩ := row_of_mem_searchConeTo searched member
    exact inside.2.1
  · obtain ⟨item, isItem, score, rfl⟩ := ofEntry_of_mem_memorySearch searched member
    have kept : item.1 ∉ exclude ∧ item.2.tier ≠ .hot := by
      simpa using (List.mem_filter.mp isItem).2
    exact kept.1

end Memory

namespace ConeRetriever

variable {env : RetrievalEnv V} {cone : ConeQuery} {found : ToolStore.ToolSearchResult}

/-- The result is a row of the store that has no version chain, and one that is left out has
the name of its tool. -/
def Unchained (retriever : ConeRetriever V) (lineages : List String)
    (found : ToolStore.ToolSearchResult) : Prop :=
  ∃ s, retriever.store = some s ∧ ∃ hit : Hit, makeSearchResult hit = found ∧
    hit.1 ∈ s.tools.rows ∧ hit.1.lineageId = "" ∧ hit.1.toolName ∈ lineages

/-- What a retrieval sees to before it asks for permissions. -/
structure Within (retriever : ConeRetriever V) (cone : ConeQuery)
    (found : ToolStore.ToolSearchResult) : Prop where
  named : found.toolName ∉ cone.excludeNames
  inactive : ¬retriever.Unchained cone.excludeLineages found →
    orElse found.lineageId found.toolName ∉ cone.excludeLineages
  risk : riskRank found.riskLevel ≤ riskRank cone.riskCeiling

variable {retriever : ConeRetriever V} {lineages : List String}

/-- A row without a version chain is taken for one of the chain that its tool names. -/
theorem Unchained.mem (unchained : retriever.Unchained lineages found) :
    orElse found.lineageId found.toolName ∈ lineages := by
  obtain ⟨s, -, hit, rfl, -, without, active⟩ := unchained
  change orElse (orElse hit.1.lineageId hit.1.toolName) hit.1.toolName ∈ lineages
  rw [orElse_orElse, without]
  exact active

/-- There are no such rows in a reachable store, unless a tool without a name is active. -/
theorem not_unchained_of_reachable
    (reach : ∀ s, retriever.store = some s → ReachableState s) (named : "" ∉ lineages) :
    ¬retriever.Unchained lineages found := by
  rintro ⟨s, store, hit, -, member, without, active⟩
  rw [(reach s store).haveChains hit.1 member without] at active
  exact named active

theorem within_of_mem_retrieveViaVault {vault : SearchableVault V}
    (member : found ∈ retrieveViaVault env cone vault) : Within retriever cone found := by
  unfold retrieveViaVault at member
  split at member
  · exact absurd member List.not_mem_nil
  · rename_i results searched
    obtain ⟨isResult, inside⟩ := List.mem_filter.mp member
    have bounds : riskRank found.riskLevel ≤ riskRank cone.riskCeiling ∧
        orElse found.lineageId found.toolName ∉ cone.excludeLineages := by
      simpa using inside
    exact ⟨not_mem_exclude_of_mem_search searched isResult, fun _ => bounds.2, bounds.1⟩

theorem within_makeSearchResult {hit : Hit} {s : StoreState V} {boundaries : Cone}
    (store : retriever.store = some s) (member : hit.1 ∈ s.tools.rows)
    (inside : coneWhere boundaries s hit.1)
    (same : boundaries =
      ⟨cone.excludeNames, cone.excludeLineages, cone.tags, cone.riskCeiling⟩) :
    Within retriever cone (makeSearchResult hit) := by
  subst same
  obtain ⟨risk, named, lineage, -⟩ := inside
  refine ⟨named, fun chained => ?_, ?_⟩
  · change orElse (orElse hit.1.lineageId hit.1.toolName) hit.1.toolName ∉ cone.excludeLineages
    rw [orElse_orElse]
    by_cases without : hit.1.lineageId = ""
    · have own : orElse hit.1.lineageId hit.1.toolName = hit.1.toolName := if_pos without
      rw [own]
      exact fun active => chained ⟨s, store, hit, rfl, member, without, active⟩
    · have own : orElse hit.1.lineageId hit.1.toolName = hit.1.lineageId := if_neg without
      rw [own]
      exact lineage.resolve_left without
  · change riskRank (orElse hit.1.riskLevel "low") ≤ riskRank cone.riskCeiling
    rw [riskRank_orElse_low]
    exact risk

theorem within_of_mem_retrieveViaStore {vault : Option (SearchableVault V)} {s : StoreState V}
    (store : retriever.store = some s) (member : found ∈ retrieveViaStore env cone vault s) :
    Within retriever cone found := by
  unfold retrieveViaStore at member
  dsimp only at member
  split at member
  · rename_i results searched
    obtain ⟨hit, rfl, isRow, inside⟩ := row_of_mem_searchConeTo searched member
    exact within_makeSearchResult store isRow inside rfl
  · split at member
    · exact absurd member List.not_mem_nil
    · exact within_of_mem_retrieveViaVault member

theorem within_of_mem_retrieve (member : found ∈ retriever.retrieve env cone) :
    Within retriever cone found ∧
      permissionsSatisfied found.requiredPermissions cone.grantedPermissions = true := by
  unfold retrieve at member
  obtain ⟨isResult, permitted⟩ := List.mem_filter.mp ((sliceTo_sublist _ _).subset member)
  refine ⟨?_, permitted⟩
  split at isResult
  · rename_i s store
    exact within_of_mem_retrieveViaStore store isResult
  · split at isResult
    · exact absurd isResult List.not_mem_nil
    · exact within_of_mem_retrieveViaVault isResult

/-- On every path, what is retrieved is within all boundaries of the cone, but for rows without
a version chain. -/
theorem admits_iff_of_mem_retrieve (member : found ∈ retriever.retrieve env cone) :
    cone.Admits (asCandidate found) ↔ ¬retriever.Unchained cone.excludeLineages found := by
  obtain ⟨within, permitted⟩ := within_of_mem_retrieve member
  constructor
  · exact fun admits unchained => admits.inactive unchained.mem
  · exact fun chained => ⟨within.named, within.inactive chained, within.risk, permitted⟩

end ConeRetriever

end YouMi.Mcp

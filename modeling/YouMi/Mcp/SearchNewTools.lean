import YouMi.Coordinator.ToolApproval
import YouMi.Mcp.Cone

/-!
# The search for new tools

`search_new_tools` is a tool of the bridge itself: it searches, takes rejections and loads
what has been found.  A search asks the cone first; where that finds nothing, it looks for
the words of the query in what the server lists.
-/

namespace YouMi.Mcp

open YouMi.Coordinator YouMi.Core YouMi.Library YouMi.Mcp.ToolStore

/-- What the server lists of a tool. -/
structure MCPToolInfo where
  name : String
  description : String := ""

/-- What the agent passes; nothing for `top_k` where it is no number. -/
structure SearchArguments where
  load : String := ""
  reject : String := ""
  query : String := ""
  topK : Option Int := none

structure SearchEnv (V : Type) extends RetrievalEnv V where
  /-- What the server lists, nothing where the call raises. -/
  listTools : Option (List MCPToolInfo)
  /-- The identifier drawn for a record of approval. -/
  freshId : String
  /-- `round(score, 3)` in floating point. -/
  roundScore : Rat → Rat

/-- A bridge with what it searches in. -/
structure ToolSearcher (V : Type) where
  bridge : ToolBridge V
  vault : Option (SearchableVault V) := none
  gate : Option AuditGate := none
  /-- The retriever that the bridge was given. -/
  cone : Option (ConeRetriever V) := none
  lastSearchQuery : String := ""

inductive FoundTool where
  | cone (result : ToolStore.ToolSearchResult)
  | keyword (tool : MCPToolInfo)

/-- A tool as the agent is told of it. -/
structure SearchCandidate where
  name : String
  score : Rat
  summary : String

inductive SearchMessage where
  | hint
  | allRejected (count : Nat)
  | nothingFound

inductive SearchReport where
  | failure (message : String)
  | load (report : LoadReport)
  | terminated (rejectCount : Nat)
  | candidates (found : List FoundTool) (message : SearchMessage)

def SearchReport.found : SearchReport → List FoundTool
  | .candidates found _ => found
  | _ => []

def FoundTool.candidate (roundScore : Rat → Rat) : FoundTool → SearchCandidate
  | .cone result => ⟨result.toolName, roundScore result.score, result.summary⟩
  | .keyword tool => ⟨tool.name, 1 / 2, slice tool.description 100⟩

variable {V : Type}

/-- What is known of the tool: what the cone has found of it, or its entry in the vault. -/
def FoundTool.facts (vault : Option (ToolVault V)) : FoundTool → ToolSearchResult
  | .cone result => asCandidate result
  | .keyword tool => auditCandidate vault tool.name

/-! ## Keywords -/

def isCjk (c : Char) : Bool := 0x4e00 ≤ c.toNat && c.toNat ≤ 0x9fff

/-- The words of the query, without short ones unless they are Chinese. -/
def searchKeywords (lower : String → String) (query : String) : List (List Char) :=
  (words (lower query)).filter fun keyword => 2 < keyword.length || keyword.any isCjk

def MCPToolInfo.matchesQuery (lower : String → String) (query : String) (tool : MCPToolInfo) :
    Bool :=
  (searchKeywords lower query).any fun keyword =>
    contains (lower tool.description).toList keyword || contains (lower tool.name).toList keyword

/-- The names in a text, between commas. -/
def rejectedNames (text : String) : List String :=
  ((text.toList.splitOn ',').map fun name => strip (String.ofList name)).filter fun name =>
    name ≠ ""

namespace ToolSearcher

/-- `_get_cone`: without a retriever of its own, the bridge takes one for its vault. -/
def getCone (searcher : ToolSearcher V) : Option (ConeRetriever V) :=
  match searcher.cone with
  | some cone => some cone
  | none => searcher.vault.map fun vault => { vault := some vault, store := vault.attachedStore }

/-- The vault as the other operations of the bridge see it. -/
def toolVault (searcher : ToolSearcher V) : Option (ToolVault V) :=
  searcher.vault.map SearchableVault.toToolVault

def visibleToolNames (searcher : ToolSearcher V) : List String :=
  match searcher.bridge.allowedTools with
  | some allowed => allowed
  | none =>
      match searcher.bridge.context with
      | some context =>
          OrderedDict.keys (context.contexts.filter fun entry => entry.2.tier = .hot)
      | none =>
          match searcher.vault with
          | some vault =>
              (vault.entries.filter fun item => item.2.tier = .hot).map fun item =>
                item.2.toolName
          | none => []

/-- What is visible or rejected. -/
def excluded (searcher : ToolSearcher V) : List String :=
  searcher.visibleToolNames ++ searcher.bridge.rejectedTools

/-- The cone that the bridge asks for. -/
def coneQuery (query : String) (topK : Int) (minScore : Rat) (searcher : ToolSearcher V) :
    ConeQuery where
  query := query
  grantedPermissions := searcher.bridge.allowedTools
  excludeNames := searcher.excluded
  excludeLineages := searcher.bridge.activeLineages.keys
  topK := topK
  minScore := minScore

def coneFound (env : SearchEnv V) (topK : Int) (searcher : ToolSearcher V) :
    List ToolStore.ToolSearchResult :=
  match searcher.getCone with
  | none => []
  | some cone =>
      cone.retrieve env.toRetrievalEnv (searcher.coneQuery searcher.lastSearchQuery topK (1 / 5))

/-- What is listed and matches, but for what is excluded. -/
def keywordFound (env : SearchEnv V) (searcher : ToolSearcher V) : List MCPToolInfo :=
  match env.listTools with
  | none => []
  | some tools =>
      tools.filter fun tool =>
        tool.name ∉ searcher.excluded ∧
          tool.matchesQuery env.ranking.lower searcher.lastSearchQuery = true

/-- The server is asked where the cone finds nothing and some tool may be out of sight. -/
def FallsBack (env : SearchEnv V) (topK : Int) (searcher : ToolSearcher V) : Prop :=
  (searcher.coneFound env topK).length = 0 ∧
    (searcher.vault.isSome = true ∨ searcher.bridge.allowedTools.isSome = true)

instance (env : SearchEnv V) (topK : Int) (searcher : ToolSearcher V) :
    Decidable (FallsBack env topK searcher) :=
  inferInstanceAs (Decidable (_ ∧ _))

def find (env : SearchEnv V) (topK : Int) (searcher : ToolSearcher V) : List FoundTool :=
  sliceTo topK
    (if FallsBack env topK searcher then (searcher.keywordFound env).map .keyword
      else (searcher.coneFound env topK).map .cone)

def message (searcher : ToolSearcher V) (found : List FoundTool) : SearchMessage :=
  if found.length ≠ 0 then .hint
  else if searcher.bridge.rejectedTools ≠ [] then
    .allRejected searcher.bridge.rejectedTools.length
  else .nothingFound

/-- The state in which a query is searched for; a new search forgets what was counted. -/
def asks (isResearch : Bool) (query : String) (searcher : ToolSearcher V) : ToolSearcher V :=
  { searcher with
    bridge :=
      if isResearch then searcher.bridge else { searcher.bridge with rejectCount := 0 }
    lastSearchQuery := query }

/-- `_search_new_tools_impl` where nothing is loaded or rejected. -/
def searchTools (env : SearchEnv V) (isResearch : Bool) (query : String) (topK : Option Int)
    (searcher : ToolSearcher V) : SearchReport × ToolSearcher V :=
  let query := strip query
  if query = "" then (.failure "参数错误: query 与 load/reject 至少提供一个", searcher)
  else
    let searcher := searcher.asks isResearch query
    let found := searcher.find env (topK.getD 5)
    (.candidates found (searcher.message found), searcher)

/-- `reject_search_result` for each of the names. -/
def rejectAll (names : List String) (searcher : ToolSearcher V) : ToolSearcher V :=
  { searcher with bridge := names.foldl ToolBridge.rejectSearchResult searcher.bridge }

/-- The names are rejected, and the rejection counts. -/
def rejects (names : List String) (searcher : ToolSearcher V) : ToolSearcher V :=
  let bridge := (searcher.rejectAll names).bridge
  { searcher with bridge := { bridge with rejectCount := bridge.rejectCount + 1 } }

def rejectAndResearch (env : SearchEnv V) (rejectRaw : String) (arguments : SearchArguments)
    (searcher : ToolSearcher V) : SearchReport × ToolSearcher V :=
  let searcher := searcher.rejects (rejectedNames rejectRaw)
  if 3 ≤ searcher.bridge.rejectCount then (.terminated searcher.bridge.rejectCount, searcher)
  else
    let query := orElse (strip arguments.query) searcher.lastSearchQuery
    if query = "" then
      (.failure "参数错误: reject 模式需要先有一次成功的搜索（或同时提供 query）", searcher)
    else searcher.searchTools env true query none

/-- The bridge, the vault and the gate after a load. -/
def afterLoad (searcher : ToolSearcher V) (outcome : LoadOutcome V) : ToolSearcher V :=
  { searcher with
    bridge := outcome.bridge
    vault := searcher.vault.map fun vault =>
      { vault with toToolVault := outcome.vault.getD vault.toToolVault }
    gate := outcome.gate }

def searchNewTools (env : SearchEnv V) (arguments : SearchArguments) (searcher : ToolSearcher V) :
    SearchReport × ToolSearcher V :=
  let loadName := strip arguments.load
  if loadName ≠ "" then
    let names := env.listTools.map fun tools => tools.map MCPToolInfo.name
    let outcome := searcher.bridge.loadDiscoveredTool searcher.toolVault searcher.gate names
      env.freshId loadName
    (.load outcome.report, searcher.afterLoad outcome)
  else
    let rejectRaw := strip arguments.reject
    if rejectRaw ≠ "" then searcher.rejectAndResearch env rejectRaw arguments
    else searcher.searchTools env false arguments.query arguments.topK

/-! ## Boundaries -/

/-- The boundaries of the bridge, of which that of risk is the highest. -/
def Admits (searcher : ToolSearcher V) (found : FoundTool) : Prop :=
  (searcher.coneQuery searcher.lastSearchQuery 5 (1 / 5)).Admits (found.facts searcher.toolVault)

/-- The state in which a call searches, with the number of tools it asks for. -/
def searches (arguments : SearchArguments) (searcher : ToolSearcher V) :
    Option (ToolSearcher V × Int) :=
  if strip arguments.load ≠ "" then none
  else if strip arguments.reject ≠ "" then
    let searcher := searcher.rejects (rejectedNames (strip arguments.reject))
    let query := strip (orElse (strip arguments.query) searcher.lastSearchQuery)
    if 3 ≤ searcher.bridge.rejectCount ∨ query = "" then none
    else some (searcher.asks true query, 5)
  else
    let query := strip arguments.query
    if query = "" then none else some (searcher.asks false query, arguments.topK.getD 5)

/-- Where the server is asked, its first tools that match belong to no active version chain
and require permissions only which the agent has. -/
def KeywordsAdmitted (env : SearchEnv V) (topK : Int) (searcher : ToolSearcher V) : Prop :=
  FallsBack env topK searcher → ∀ tool ∈ sliceTo topK (searcher.keywordFound env),
    lineageOf searcher.toolVault tool.name ∉ searcher.bridge.activeLineages.keys ∧
      permissionsSatisfied (auditCandidate searcher.toolVault tool.name).requiredPermissions
        searcher.bridge.allowedTools = true

/-- Where the cone finds tools, none of the first is a row that has no version chain while its
name is that of an active one. -/
def ChainsAdmitted (env : SearchEnv V) (topK : Int) (searcher : ToolSearcher V) : Prop :=
  ¬FallsBack env topK searcher → ∀ cone, searcher.getCone = some cone →
    ∀ found ∈ sliceTo topK (searcher.coneFound env topK),
      ¬cone.Unchained searcher.bridge.activeLineages.keys found

/-- The condition on every search that a call leads to. -/
def Bounded (env : SearchEnv V) (arguments : SearchArguments) (searcher : ToolSearcher V) : Prop :=
  ∀ state topK, searcher.searches arguments = some (state, topK) →
    KeywordsAdmitted env topK state ∧ ChainsAdmitted env topK state

variable {env : SearchEnv V} {searcher : ToolSearcher V} {arguments : SearchArguments}

theorem searchTools_of_asked (env : SearchEnv V) (isResearch : Bool) {query : String}
    (topK : Option Int) (searcher : ToolSearcher V) (asked : strip query ≠ "") :
    (searcher.searchTools env isResearch query topK).1.found =
        (searcher.asks isResearch (strip query)).find env (topK.getD 5) ∧
      (searcher.searchTools env isResearch query topK).2 =
        searcher.asks isResearch (strip query) := by
  unfold searchTools
  dsimp only
  rw [if_neg asked]
  exact ⟨rfl, rfl⟩

theorem found_searchTools_of_empty {isResearch : Bool} {query : String} {topK : Option Int}
    (empty : strip query = "") : (searcher.searchTools env isResearch query topK).1.found = [] := by
  unfold searchTools
  dsimp only
  rw [if_pos empty]
  rfl

/-- A call that does not search finds nothing, and else what its search finds. -/
inductive Outcome (env : SearchEnv V) (arguments : SearchArguments) (searcher : ToolSearcher V)
    (outcome : SearchReport × ToolSearcher V) : Prop where
  | silent (nothing : searcher.searches arguments = none) (empty : outcome.1.found = [])
  | searched (topK : Int) (searching : searcher.searches arguments = some (outcome.2, topK))
      (found : outcome.1.found = outcome.2.find env topK)

theorem outcome_rejectAndResearch (loads : strip arguments.load = "")
    (rejects : strip arguments.reject ≠ "") :
    Outcome env arguments searcher
      (searcher.rejectAndResearch env (strip arguments.reject) arguments) := by
  have plan : searcher.searches arguments =
      if 3 ≤ (searcher.rejects (rejectedNames (strip arguments.reject))).bridge.rejectCount ∨
          strip (orElse (strip arguments.query)
            (searcher.rejects (rejectedNames (strip arguments.reject))).lastSearchQuery) = ""
      then none
      else some ((searcher.rejects (rejectedNames (strip arguments.reject))).asks true
        (strip (orElse (strip arguments.query)
          (searcher.rejects (rejectedNames (strip arguments.reject))).lastSearchQuery)), 5) := by
    unfold searches
    rw [if_neg (not_not.mpr loads), if_pos rejects]
  unfold rejectAndResearch
  dsimp only
  generalize searcher.rejects (rejectedNames (strip arguments.reject)) = rejected at plan ⊢
  generalize orElse (strip arguments.query) rejected.lastSearchQuery = query at plan ⊢
  by_cases many : 3 ≤ rejected.bridge.rejectCount
  · rw [if_pos (.inl many)] at plan
    rw [if_pos many]
    exact .silent plan rfl
  · rw [if_neg many]
    by_cases empty : strip query = ""
    · rw [if_pos (.inr empty)] at plan
      by_cases missing : query = ""
      · rw [if_pos missing]
        exact .silent plan rfl
      · rw [if_neg missing]
        exact .silent plan (found_searchTools_of_empty empty)
    · have given : query ≠ "" := by
        rintro rfl
        exact empty rfl
      rw [if_neg (not_or.mpr ⟨many, empty⟩)] at plan
      rw [if_neg given]
      obtain ⟨found, after⟩ := searchTools_of_asked env true none rejected empty
      exact .searched 5 (after ▸ plan) (after ▸ found)

theorem outcome_searchNewTools (env : SearchEnv V) (arguments : SearchArguments)
    (searcher : ToolSearcher V) :
    Outcome env arguments searcher (searcher.searchNewTools env arguments) := by
  unfold searchNewTools
  dsimp only
  by_cases loads : strip arguments.load = ""
  · rw [if_neg (not_not.mpr loads)]
    by_cases rejects : strip arguments.reject = ""
    · rw [if_neg (not_not.mpr rejects)]
      have plan : searcher.searches arguments =
          if strip arguments.query = "" then none
          else some (searcher.asks false (strip arguments.query), arguments.topK.getD 5) := by
        unfold searches
        rw [if_neg (not_not.mpr loads), if_neg (not_not.mpr rejects)]
      by_cases empty : strip arguments.query = ""
      · rw [if_pos empty] at plan
        exact .silent plan (found_searchTools_of_empty empty)
      · rw [if_neg empty] at plan
        obtain ⟨found, after⟩ := searchTools_of_asked env false arguments.topK searcher empty
        exact .searched _ (after ▸ plan) (after ▸ found)
    · rw [if_pos rejects]
      exact outcome_rejectAndResearch loads rejects
  · rw [if_pos loads]
    refine .silent ?_ rfl
    unfold searches
    exact if_pos loads

theorem mem_keywordFound_iff {tool : MCPToolInfo} :
    tool ∈ searcher.keywordFound env ↔
      (∃ tools, env.listTools = some tools ∧ tool ∈ tools) ∧ tool.name ∉ searcher.excluded ∧
        tool.matchesQuery env.ranking.lower searcher.lastSearchQuery = true := by
  unfold keywordFound
  cases env.listTools with
  | none => simp
  | some tools =>
      rw [List.mem_filter, decide_eq_true_eq]
      exact and_congr_left fun _ => ⟨fun here => ⟨tools, rfl, here⟩, fun ⟨_, same, here⟩ =>
        Option.some.inj same ▸ here⟩

/-- A tool that the server lists is judged by its version chain and its entry in the vault. -/
theorem admits_keyword_iff {tool : MCPToolInfo} :
    searcher.Admits (.keyword tool) ↔
      tool.name ∉ searcher.excluded ∧
        lineageOf searcher.toolVault tool.name ∉ searcher.bridge.activeLineages.keys ∧
        permissionsSatisfied (auditCandidate searcher.toolVault tool.name).requiredPermissions
          searcher.bridge.allowedTools = true := by
  have chain : orElse (auditCandidate searcher.toolVault tool.name).lineageId
      (auditCandidate searcher.toolVault tool.name).toolName =
        lineageOf searcher.toolVault tool.name := by
    unfold auditCandidate lineageOf
    cases entryOf searcher.toolVault tool.name with
    | none => rfl
    | some entry => exact orElse_orElse _ _
  constructor
  · intro admits
    refine ⟨?_, chain ▸ admits.inactive, admits.permitted⟩
    have named := admits.named
    rwa [FoundTool.facts, toolName_auditCandidate] at named
  · rintro ⟨named, inactive, permitted⟩
    refine ⟨?_, chain.symm ▸ inactive, riskRank_le_critical _, permitted⟩
    rwa [FoundTool.facts, toolName_auditCandidate]

/-- What the cone finds is admitted, if its version chain is known. -/
theorem admits_cone_iff {topK : Int} {found : ToolStore.ToolSearchResult}
    (member : found ∈ searcher.coneFound env topK) :
    searcher.Admits (.cone found) ↔ ∀ cone, searcher.getCone = some cone →
      ¬cone.Unchained searcher.bridge.activeLineages.keys found := by
  unfold coneFound at member
  split at member
  · exact absurd member List.not_mem_nil
  · rename_i cone isCone
    have admits := ConeRetriever.admits_iff_of_mem_retrieve member
    constructor
    · intro admitted other isOther
      rw [isCone] at isOther
      cases isOther
      exact admits.mp ⟨admitted.named, admitted.inactive, admitted.risk, admitted.permitted⟩
    · intro chained
      obtain ⟨named, inactive, risk, permitted⟩ := admits.mpr (chained cone isCone)
      exact ⟨named, inactive, risk, permitted⟩

theorem forall_find_admits_iff {topK : Int} :
    (∀ found ∈ searcher.find env topK, searcher.Admits found) ↔
      KeywordsAdmitted env topK searcher ∧ ChainsAdmitted env topK searcher := by
  unfold find KeywordsAdmitted ChainsAdmitted
  by_cases falls : FallsBack env topK searcher
  · rw [if_pos falls]
    constructor
    · refine fun admits => ⟨fun _ tool member => ?_, fun kept => absurd falls kept⟩
      have inside : FoundTool.keyword tool ∈
          sliceTo topK ((searcher.keywordFound env).map .keyword) := by
        rw [sliceTo_map]
        exact List.mem_map_of_mem member
      exact (admits_keyword_iff.mp (admits _ inside)).2
    · rintro ⟨admitted, _⟩ found member
      rw [sliceTo_map] at member
      obtain ⟨tool, isTool, rfl⟩ := List.mem_map.mp member
      have named := (mem_keywordFound_iff.mp ((sliceTo_sublist _ _).subset isTool)).2.1
      exact admits_keyword_iff.mpr ⟨named, admitted falls tool isTool⟩
  · rw [if_neg falls, sliceTo_map]
    constructor
    · refine fun admits => ⟨fun fallen => absurd fallen falls, fun _ cone isCone found member => ?_⟩
      exact (admits_cone_iff ((sliceTo_sublist _ _).subset member)).mp
        (admits _ (List.mem_map_of_mem member)) cone isCone
    · rintro ⟨_, chained⟩ found member
      obtain ⟨result, isResult, rfl⟩ := List.mem_map.mp member
      exact (admits_cone_iff ((sliceTo_sublist _ _).subset isResult)).mpr
        fun cone isCone => chained falls cone isCone result isResult

/-- Over a reachable store, only keywords can go wrong, unless a tool without a name is
active. -/
theorem chainsAdmitted_of_reachable {topK : Int}
    (reach : ∀ cone s, searcher.getCone = some cone → cone.store = some s → ReachableState s)
    (named : "" ∉ searcher.bridge.activeLineages.keys) : ChainsAdmitted env topK searcher :=
  fun _ cone isCone _ _ =>
    ConeRetriever.not_unchained_of_reachable (fun s => reach cone s isCone) named

/-- The agent is told the name of the tool that is judged. -/
theorem name_candidate (roundScore : Rat → Rat) (vault : Option (ToolVault V))
    (found : FoundTool) : (found.candidate roundScore).name = (found.facts vault).toolName := by
  cases found with
  | cone result => rfl
  | keyword tool => exact (toolName_auditCandidate vault tool.name).symm

theorem named_of_mem_find {topK : Int} {found : FoundTool}
    (member : found ∈ searcher.find env topK) :
    (found.facts searcher.toolVault).toolName ∉ searcher.excluded := by
  unfold find at member
  split at member
  · rw [sliceTo_map] at member
    obtain ⟨tool, isTool, rfl⟩ := List.mem_map.mp member
    have inside := (sliceTo_sublist topK (searcher.keywordFound env)).subset isTool
    rw [FoundTool.facts, toolName_auditCandidate]
    exact (mem_keywordFound_iff.mp inside).2.1
  · rw [sliceTo_map] at member
    obtain ⟨result, isResult, rfl⟩ := List.mem_map.mp member
    have inside := (sliceTo_sublist topK (searcher.coneFound env topK)).subset isResult
    unfold coneFound at inside
    split at inside
    · exact absurd inside List.not_mem_nil
    · exact (ConeRetriever.within_of_mem_retrieve inside).1.named

/-- On every path, the agent is told of no tool that it sees or has rejected. -/
theorem told_not_excluded (env : SearchEnv V) (searcher : ToolSearcher V)
    (arguments : SearchArguments) :
    ∀ candidate ∈ (searcher.searchNewTools env arguments).1.found.map
        (FoundTool.candidate env.roundScore),
      candidate.name ∉ (searcher.searchNewTools env arguments).2.excluded := by
  intro candidate told
  obtain ⟨found, member, rfl⟩ := List.mem_map.mp told
  have outcome := outcome_searchNewTools env arguments searcher
  generalize searcher.searchNewTools env arguments = reached at outcome member ⊢
  cases outcome with
  | silent _ empty =>
      rw [empty] at member
      exact absurd member List.not_mem_nil
  | searched topK _ finds =>
      rw [finds] at member
      rw [name_candidate env.roundScore reached.2.toolVault]
      exact named_of_mem_find member

/--
All that a call finds is within the boundaries of the agent exactly if its search does not
fall back on keywords, or finds by them only tools of inactive version chains which require
no permission that the agent does not have; and the rows that the cone finds have version
chains, or names that are none of the active ones.
-/
theorem found_admitted_iff (env : SearchEnv V) (searcher : ToolSearcher V)
    (arguments : SearchArguments) :
    (∀ found ∈ (searcher.searchNewTools env arguments).1.found,
        (searcher.searchNewTools env arguments).2.Admits found) ↔
      Bounded env arguments searcher := by
  have outcome := outcome_searchNewTools env arguments searcher
  generalize searcher.searchNewTools env arguments = reached at outcome ⊢
  cases outcome with
  | silent nothing empty =>
      rw [empty]
      refine iff_of_true (fun found member => absurd member List.not_mem_nil) ?_
      intro state topK searching
      rw [nothing] at searching
      cases searching
  | searched topK searching found =>
      rw [found, forall_find_admits_iff]
      constructor
      · intro admitted state topK' same
        rw [searching] at same
        cases same
        exact admitted
      · exact fun bounded => bounded _ topK searching

end ToolSearcher

/-! ## A tool that sends mail -/

/-- A tool of the vault for which a permission is required. -/
def mailEntry : VaultEntry Unit where
  toolName := "send_email"
  definition := { plainDefinition "send an email" with requiredPermissions := ["net:smtp"] }
  providerId := "mail"
  essential := false
  embedding := none
  summary := "send an email"
  version := "1.0.0"
  language := "python"
  riskLevel := "low"
  requiredPermissions := ["net:smtp"]
  lineageId := "send_email"
  summaryL2 := "send an email"
  origin := "external"
  stage := .stable
  tier := .cold

/-- An agent that may read files only. -/
def fileReader : ToolSearcher Unit where
  bridge := { agentId := "agent", allowedTools := some ["fs:read"] }
  vault := some
    { entries := [("send_email", mailEntry)], store := .empty none, persistent := false }

def mailListed : SearchEnv Unit where
  ranking := { unitRanking with lower := id }
  cone := { env := atTime 1 }
  vault := { env := atTime 1 }
  client := none
  listTools := some [{ name := "send_email", description := "send an email" }]
  freshId := "record"
  roundScore := id

namespace ToolSearcher

/-- The cone leaves the tool out, and the words of the query bring it back. -/
theorem unpermitted_found :
    ¬ ∀ found ∈ (fileReader.searchNewTools mailListed { query := "email" }).1.found,
        (fileReader.searchNewTools mailListed { query := "email" }).2.Admits found := by
  intro admitted
  have required : (fileReader.searchNewTools mailListed { query := "email" }).1.found.map
      (fun found => (found.facts
        (fileReader.searchNewTools mailListed { query := "email" }).2.toolVault).requiredPermissions)
        = [["net:smtp"]] := by decide +kernel
  obtain ⟨found, member, requires⟩ := List.mem_map.mp (required ▸ List.mem_singleton_self _)
  have permitted := (admitted found member).permitted
  rw [requires] at permitted
  revert permitted
  decide +kernel

end ToolSearcher

end YouMi.Mcp

import YouMi.Library.Covered
import YouMi.Mcp.SkillTagTexts

/-!
# Skills found by their tags

A search for tags is to return the current versions of the skills that have one of the tags, best
first.  It does where no other row is found among the best, and no better one is missed.
-/

namespace YouMi.Mcp.SkillStore

open YouMi.Core YouMi.Library YouMi.Mcp.ToolStore YouMi.Python

variable {V : Type}

/-! ## What a path looks at -/

/-- One of the three paths of a search. -/
structure SkillPath where
  /-- What the path can rank, whatever the tags. -/
  relevant : VecLevel → List SkillHit
  /-- The rows of its query with their scores. -/
  rows : VecLevel → List SkillHit
  accepts : SkillHit → Bool
  answers : Bool

section Paths

variable (ranking : SkillRanking V) (request : SkillRequest)

/-- The rows with a vector in the index, with the scores of these. -/
def indexedHits (queryVec : V) (s : SkillState V) (level : VecLevel) : List SkillHit :=
  joined s.skills SkillRow.id ((s.index level).map fun entry =>
    (entry.1, l2ToCosine (ranking.distance queryVec entry.2)))

def scored (hit : SkillHit) : SkillHit := (hit.1, l2ToCosine hit.2)

def keywordPath (s : SkillState V) : SkillPath where
  relevant _ := keywordHits ranking request s
  rows _ := (keywordHits ranking request s).filter fun hit => coneWhere request hit.1
  accepts hit := 0 < hit.2
  answers := true

def vec0Path (vec : VecExtension V) (queryVec : V) (s : SkillState V) : SkillPath where
  relevant := indexedHits ranking (vec.normalize queryVec) s
  rows level := (nearRows ranking request (vec.normalize queryVec) s level).map scored
  accepts hit := request.minScore ≤ hit.2
  answers := ranking.fits queryVec ∧ fetchK request ≤ ranking.maxNeighbours

def jsonPath (queryVec : V) (s : SkillState V) : SkillPath where
  relevant := jsonHits ranking queryVec s
  rows level := (jsonHits ranking queryVec s level).filter fun hit => coneWhere request hit.1
  accepts hit := request.minScore ≤ hit.2
  answers := true

def skillPath (env : SkillEnv V) (s : SkillState V) : SkillPath :=
  match env.embedOne.bind fun embed => embed request.query with
  | none => keywordPath ranking request s
  | some queryVec =>
      match s.vecExtension with
      | some vec => vec0Path ranking request vec queryVec s
      | none => jsonPath ranking request queryVec s

end Paths

/-! ## What is wanted -/

/-- Within the risk, with one of the tags, and the version that `get_skill` returns. -/
def IsWanted (request : SkillRequest) (s : SkillState V) (row : SkillRow) : Prop :=
  riskRank row.riskLevel ≤ riskRank request.riskCeiling ∧
    (request.tags = [] ∨ ∃ tag ∈ request.tags, tag ∈ loadsTags row.tags) ∧
    s.currentRow row.skillName = some row

instance (request : SkillRequest) (s : SkillState V) (row : SkillRow) :
    Decidable (IsWanted request s row) :=
  inferInstanceAs (Decidable (_ ∧ _ ∧ _))

namespace SkillPath

variable (path : SkillPath) (request : SkillRequest) (s : SkillState V)

/-- The relevant hits of wanted skills; the first level stands in for the second. -/
def wantedHits : List SkillHit :=
  (orFirstLevel request.level fun level =>
    (path.relevant level).filter fun hit => IsWanted request s hit.1).filter path.accepts

def foundHits : List SkillHit := (orFirstLevel request.level path.rows).filter path.accepts

end SkillPath

/-- Whatever the order of the database, the wanted skills are returned, each once, and of these
the best up to ties. -/
def SearchesByTag (ranking : SkillRanking V) (request : SkillRequest) (env : SkillEnv V)
    (s : SkillState V) : Prop :=
  let wanted := (skillPath ranking request env s).wantedHits request s
  ∀ order, ∃ hits, searchHits ranking order request env s = some hits ∧ hits ⊆ wanted ∧
    (hits.map fun hit => hit.1.skillName).Nodup ∧
    SameUpToTies Prod.snd request.topK hits (best Prod.snd request.topK wanted)

/-- What is found and not wanted has enough hits above it, and what is wanted and not found has
enough wanted hits that are found at or above it. -/
structure FindsByTag (ranking : SkillRanking V) (request : SkillRequest) (env : SkillEnv V)
    (s : SkillState V) : Prop where
  answers : (skillPath ranking request env s).answers = true
  outscored : Outscored Prod.snd request.topK ((skillPath ranking request env s).wantedHits request s)
    ((skillPath ranking request env s).foundHits request)
  covered : Covered Prod.snd request.topK
    (((skillPath ranking request env s).foundHits request).filter fun hit =>
      hit ∈ (skillPath ranking request env s).wantedHits request s)
    ((skillPath ranking request env s).wantedHits request s)

/-! ## Rows are joined once -/

theorem map_key_joined {κ : Type} [DecidableEq κ] (skills : RowTable SkillRow)
    (key : SkillRow → κ) (entries : List (κ × Rat)) :
    ((joined skills key entries).map fun hit => key hit.1).Sublist (entries.map Prod.fst) := by
  unfold joined
  induction entries with
  | nil => exact List.Sublist.slnil
  | cons entry rest ih =>
      cases found : skills.rows.find? fun row => key row = entry.1 with
      | none =>
          rw [List.filterMap_cons_none (by rw [found]; rfl)]
          exact ih.cons entry.1
      | some row =>
          have same : key row = entry.1 := by simpa using List.find?_some found
          rw [List.filterMap_cons_some (by rw [found]; rfl), List.map_cons, List.map_cons]
          dsimp only
          rw [same]
          exact ih.cons_cons entry.1

theorem nodup_joined {κ : Type} [DecidableEq κ] {skills : RowTable SkillRow} {key : SkillRow → κ}
    {entries : List (κ × Rat)} (keyed : (entries.map Prod.fst).Nodup) :
    ((joined skills key entries).map Prod.fst).Nodup := by
  have keys := keyed.sublist (map_key_joined skills key entries)
  apply List.Nodup.of_map key
  rwa [List.map_map]

section Distinct

variable (ranking : SkillRanking V) (request : SkillRequest) (queryVec : V) (env : SkillEnv V)
  (s : SkillState V) (level : VecLevel)

theorem nodup_keywordHits : ((keywordHits ranking request s).map Prod.fst).Nodup := by
  unfold keywordHits
  rw [List.map_map]
  exact (List.map_id _).symm ▸ s.skills.nodup.filter _

theorem nodup_indexedHits : ((indexedHits ranking queryVec s level).map Prod.fst).Nodup := by
  apply nodup_joined
  rw [List.map_map]
  exact s.index_keyed level

theorem nodup_jsonHits : ((jsonHits ranking queryVec s level).map Prod.fst).Nodup := by
  refine nodup_joined (List.Nodup.of_map (fun skillId => (skillId, level)) ?_)
  rw [List.map_map, List.map_map]
  -- One level has one vector of a skill.
  have keys : (s.vecSkills.filter fun entry => entry.1.2 = level).map
      (fun entry => (entry.1.1, level)) =
        (s.vecSkills.filter fun entry => entry.1.2 = level).map Prod.fst := by
    apply List.map_congr_left
    intro entry member
    have same : entry.1.2 = level := by simpa using (List.mem_filter.mp member).2
    rw [← same]
  exact keys ▸ s.vec_keyed.sublist (List.filter_sublist.map _)

theorem nodup_nearRows : ((nearRows ranking request queryVec s level).map Prod.fst).Nodup := by
  refine List.Nodup.sublist (List.filter_sublist.map _) (nodup_joined ?_)
  obtain ⟨chosen, rest, perm, near, -⟩ :=
    ranking.nearest queryVec (fetchK request) (s.index level)
  rw [near, List.map_map]
  have keyed := (perm.map Prod.fst).nodup_iff.mp (s.index_keyed level)
  rw [List.map_append] at keyed
  exact (List.nodup_append.mp keyed).1

theorem nodup_relevant :
    (((skillPath ranking request env s).relevant level).map Prod.fst).Nodup := by
  unfold skillPath
  split
  · exact nodup_keywordHits ranking request s
  · split
    · exact nodup_indexedHits ranking _ s level
    · exact nodup_jsonHits ranking _ s level

theorem nodup_rows : (((skillPath ranking request env s).rows level).map Prod.fst).Nodup := by
  unfold skillPath
  split
  · exact (nodup_keywordHits ranking request s).sublist (List.filter_sublist.map _)
  · split
    · have rows (hits : List SkillHit) : (hits.map scored).map Prod.fst = hits.map Prod.fst := by
        rw [List.map_map]
        rfl
      exact (rows _).symm ▸ nodup_nearRows ranking request _ s level
    · exact (nodup_jsonHits ranking _ s level).sublist (List.filter_sublist.map _)

theorem orFirstLevel_cases (motive : List SkillHit → Prop) {level : VecLevel}
    {rows : VecLevel → List SkillHit} (each : ∀ level, motive (rows level)) :
    motive (orFirstLevel level rows) := by
  unfold orFirstLevel
  split
  · exact each .l1
  · exact each level

theorem nodup_foundHits : ((skillPath ranking request env s).foundHits request).Nodup := by
  refine List.Nodup.filter _ (orFirstLevel_cases List.Nodup fun level => ?_)
  exact List.Nodup.of_map Prod.fst (nodup_rows ranking request env s level)

/-- Each wanted row occurs once. -/
theorem nodup_wantedRows :
    (((skillPath ranking request env s).wantedHits request s).map Prod.fst).Nodup := by
  refine List.Nodup.sublist (List.filter_sublist.map _)
    (orFirstLevel_cases (fun hits => (hits.map Prod.fst).Nodup) fun level => ?_)
  exact (nodup_relevant ranking request env s level).sublist (List.filter_sublist.map _)

end Distinct

theorem isWanted_of_mem {path : SkillPath} {request : SkillRequest} {s : SkillState V}
    {hit : SkillHit} (member : hit ∈ path.wantedHits request s) : IsWanted request s hit.1 := by
  have inside := List.mem_of_mem_filter member
  refine orFirstLevel_cases
    (fun hits => hit ∈ hits → IsWanted request s hit.1) (fun level here => ?_) inside
  exact of_decide_eq_true (List.mem_filter.mp here).2

/-- Different wanted hits are of different skills. -/
theorem nodup_names {ranking : SkillRanking V} {request : SkillRequest} {env : SkillEnv V}
    {s : SkillState V} {hits : List SkillHit} (distinct : hits.Nodup)
    (inside : hits ⊆ (skillPath ranking request env s).wantedHits request s) :
    (hits.map fun hit => hit.1.skillName).Nodup := by
  apply distinct.map_on
  intro first hfirst second hsecond same
  have current := (isWanted_of_mem (inside hfirst)).2.2
  have current' := (isWanted_of_mem (inside hsecond)).2.2
  rw [same, current'] at current
  exact List.inj_on_of_nodup_map (nodup_wantedRows ranking request env s) (inside hfirst)
    (inside hsecond) (Option.some.inj current).symm

/-! ## The hits of a search -/

/-- The given hit, if it is there, comes first. -/
def frontOrder (hit : SkillHit) : RowOrder where
  arrange rows := if hit ∈ rows then hit :: rows.erase hit else rows
  perm rows := by
    split
    · rename_i member
      exact (List.perm_cons_erase member).symm
    · exact .refl rows

/-- A search ranks what is found, and any of it may come first. -/
structure Ranks (result : RowOrder → Option (List SkillHit)) (topK : Nat)
    (found : List SkillHit) : Prop where
  ranked : ∀ order, ∃ arranged, arranged.Perm found ∧
    result order = some (best Prod.snd topK arranged)
  front : ∀ hit ∈ found, ∃ order rest, (hit :: rest).Perm found ∧
    result order = some (best Prod.snd topK (hit :: rest))

theorem ranks_of_arranged {result : RowOrder → Option (List SkillHit)} {topK : Nat}
    (rows : List SkillHit) (rescore : SkillHit → SkillHit) (accepts : SkillHit → Bool)
    (searched : ∀ order : RowOrder, result order =
      some (best Prod.snd topK (((order.arrange rows).map rescore).filter accepts))) :
    Ranks result topK ((rows.map rescore).filter accepts) := by
  have perm (order : RowOrder) : (((order.arrange rows).map rescore).filter accepts).Perm
      ((rows.map rescore).filter accepts) := ((order.perm rows).map _).filter _
  refine ⟨fun order => ⟨_, perm order, searched order⟩, fun hit member => ?_⟩
  obtain ⟨mapped, accepted⟩ := List.mem_filter.mp member
  obtain ⟨row, here, rfl⟩ := List.mem_map.mp mapped
  have front : ((((frontOrder row).arrange rows).map rescore).filter accepts) =
      rescore row :: ((rows.erase row).map rescore).filter accepts := by
    unfold frontOrder
    dsimp only
    rw [if_pos here, List.map_cons, List.filter_cons_of_pos accepted]
  exact ⟨frontOrder row, _, front ▸ perm (frontOrder row), front ▸ searched (frontOrder row)⟩

/-- What keeps a list empty or not can be done after the level is chosen. -/
theorem orFirstLevel_map (change : List SkillHit → List SkillHit)
    (nil_iff : ∀ rows, change rows = [] ↔ rows = []) (level : VecLevel)
    (rows : VecLevel → List SkillHit) :
    orFirstLevel level (fun level => change (rows level)) = change (orFirstLevel level rows) := by
  unfold orFirstLevel
  simp only [nil_iff]
  split <;> rfl

theorem arrange_eq_nil_iff (order : RowOrder) (rows : List SkillHit) :
    order.arrange rows = [] ↔ rows = [] := by
  have perm := order.perm rows
  constructor
  · intro none
    exact (none ▸ perm).symm.eq_nil
  · rintro rfl
    exact perm.eq_nil

section Search

variable (ranking : SkillRanking V) (request : SkillRequest) (s : SkillState V)

theorem distance_nonneg_of_mem {queryVec : V} {level : VecLevel} {hit : SkillHit}
    (member : hit ∈ nearRows ranking request queryVec s level) : 0 ≤ hit.2 := by
  obtain ⟨entry, near, found⟩ := List.mem_filterMap.mp (List.mem_of_mem_filter member)
  obtain ⟨row, -, rfl⟩ := Option.map_eq_some_iff.mp found
  obtain ⟨chosen, rest, -, distances, -⟩ :=
    ranking.nearest queryVec (fetchK request) (s.index level)
  rw [distances] at near
  obtain ⟨stored, -, rfl⟩ := List.mem_map.mp near
  exact ranking.distance_nonneg _ _

theorem l2ToCosine_le_iff {first second : Rat} (hfirst : 0 ≤ first) (hsecond : 0 ≤ second) :
    l2ToCosine second ≤ l2ToCosine first ↔ first ≤ second := by
  unfold l2ToCosine
  rw [mul_self_le_mul_self_iff hfirst hsecond]
  constructor
  · intro scores
    linarith
  · intro squares
    linarith

/-- The order of the distances is that of the scores. -/
theorem map_scored_insertionSort {rows : List SkillHit} (nonneg : ∀ hit ∈ rows, 0 ≤ hit.2) :
    (rows.insertionSort fun first second => first.2 ≤ second.2).map scored =
      byScore Prod.snd (rows.map scored) :=
  List.map_insertionSort _ _ scored rows fun first hfirst second hsecond =>
    (l2ToCosine_le_iff (nonneg first hfirst) (nonneg second hsecond)).symm

theorem ranks_keywordSearch : Ranks
    (fun order => some (keywordSearch ranking order request s)) request.topK
      ((keywordPath ranking request s).foundHits request) := by
  have level : orFirstLevel request.level (keywordPath ranking request s).rows =
      (keywordHits ranking request s).filter fun hit => coneWhere request hit.1 := by
    unfold orFirstLevel
    split <;> rfl
  unfold SkillPath.foundHits
  rw [level, ← List.map_id ((keywordHits ranking request s).filter _)]
  refine ranks_of_arranged _ id _ fun order => ?_
  rw [List.map_id]
  rfl

theorem ranks_jsonSearch (queryVec : V) : Ranks
    (fun order => some (jsonSearch ranking order request queryVec s)) request.topK
      ((jsonPath ranking request queryVec s).foundHits request) := by
  unfold SkillPath.foundHits
  rw [← List.map_id (orFirstLevel request.level _)]
  refine ranks_of_arranged _ id _ fun order => ?_
  unfold jsonSearch
  rw [orFirstLevel_map order.arrange (arrange_eq_nil_iff order), List.map_id]
  rfl

theorem ranks_vec0Search (vec : VecExtension V) (queryVec : V)
    (answers : (vec0Path ranking request vec queryVec s).answers = true) : Ranks
    (fun order => vec0Search ranking order request vec queryVec s) request.topK
      ((vec0Path ranking request vec queryVec s).foundHits request) := by
  have sort_eq_nil_iff (rows : List SkillHit) :
      (rows.insertionSort fun first second => first.2 ≤ second.2) = [] ↔ rows = [] := by
    rw [← List.length_eq_zero_iff, List.length_insertionSort, List.length_eq_zero_iff]
  have rescored : orFirstLevel request.level (vec0Path ranking request vec queryVec s).rows =
      (orFirstLevel request.level
        (nearRows ranking request (vec.normalize queryVec) s)).map scored :=
    orFirstLevel_map (List.map scored) (fun _ => List.map_eq_nil_iff) _ _
  unfold SkillPath.foundHits
  rw [rescored]
  refine ranks_of_arranged _ scored _ fun order => ?_
  have nonneg : ∀ hit ∈ order.arrange (orFirstLevel request.level
      (nearRows ranking request (vec.normalize queryVec) s)), 0 ≤ hit.2 := by
    intro hit member
    have each (level : VecLevel) :
        hit ∈ nearRows ranking request (vec.normalize queryVec) s level → 0 ≤ hit.2 :=
      distance_nonneg_of_mem ranking request s
    exact orFirstLevel_cases (fun hits => hit ∈ hits → 0 ≤ hit.2) each
      ((order.perm _).mem_iff.mp member)
  unfold vec0Search
  rw [if_pos (of_decide_eq_true answers)]
  dsimp only
  rw [orFirstLevel_map (fun rows => (order.arrange rows).insertionSort
    fun first second => first.2 ≤ second.2) fun rows =>
      (sort_eq_nil_iff _).trans (arrange_eq_nil_iff order rows)]
  change some (scoredHits request (List.map scored _)) = _
  rw [map_scored_insertionSort nonneg]
  unfold scoredHits
  rw [filter_byScore, best_byScore]
  rfl

theorem ranks_searchHits (env : SkillEnv V)
    (answers : (skillPath ranking request env s).answers = true) : Ranks
    (fun order => searchHits ranking order request env s) request.topK
      ((skillPath ranking request env s).foundHits request) := by
  unfold skillPath at answers ⊢
  unfold searchHits
  cases embedded : env.embedOne.bind fun embed => embed request.query with
  | none => exact ranks_keywordSearch ranking request s
  | some queryVec =>
      rw [embedded] at answers
      cases extension : s.vecExtension with
      | none => exact ranks_jsonSearch ranking request s queryVec
      | some vec =>
          rw [extension] at answers
          exact ranks_vec0Search ranking request s vec queryVec answers

theorem answers_of_searchHits {env : SkillEnv V} {order : RowOrder} {hits : List SkillHit}
    (found : searchHits ranking order request env s = some hits) :
    (skillPath ranking request env s).answers = true := by
  unfold searchHits at found
  unfold skillPath
  split
  · rfl
  · split
    · rename_i embedded _ vec extension
      rw [embedded, extension] at found
      dsimp only at found
      unfold vec0Search at found
      split at found
      · rename_i answers
        exact decide_eq_true answers
      · cases found
    · rfl

end Search

theorem searchesByTag_iff_findsByTag (ranking : SkillRanking V) (request : SkillRequest)
    (env : SkillEnv V) (s : SkillState V) :
    SearchesByTag ranking request env s ↔ FindsByTag ranking request env s := by
  have distinct := nodup_foundHits ranking request env s
  have distinctWanted := List.Nodup.of_map _ (nodup_wantedRows ranking request env s)
  constructor
  · intro searches
    obtain ⟨hits, found, inside, -, same⟩ := searches ⟨id, fun _ => .refl _⟩
    have answers := answers_of_searchHits ranking request s found
    have ranks := ranks_searchHits ranking request s env answers
    refine ⟨answers, fun hit here unwanted => ?_, ?_⟩
    · -- The database may give the hit first.
      obtain ⟨order, rest, perm, result⟩ := ranks.front hit here
      obtain ⟨hits, found, inside, -⟩ := searches order
      rw [found] at result
      obtain rfl := Option.some.inj result
      by_contra few
      rw [← perm.countP_eq, List.countP_cons, if_neg (by simp)] at few
      exact unwanted (inside (mem_best_cons (not_le.mp few)))
    · obtain ⟨arranged, perm, result⟩ := ranks.ranked ⟨id, fun _ => .refl _⟩
      rw [found] at result
      obtain rfl := Option.some.inj result
      rw [best_eq_best_filter _ fun hit member => decide_eq_true (inside member)] at same
      exact (sameUpToTies_best_wanted_iff distinct distinctWanted perm).mp same
  · rintro ⟨answers, outscored, covered⟩ order
    obtain ⟨arranged, perm, result⟩ := (ranks_searchHits ranking request s env answers).ranked order
    have kept := best_of_outscored outscored perm
    have inside : best Prod.snd request.topK arranged ⊆
        (skillPath ranking request env s).wantedHits request s := by
      rw [kept]
      exact fun hit member =>
        of_decide_eq_true (List.mem_filter.mp (mem_of_mem_best member)).2
    refine ⟨_, result, inside, nodup_names ?_ inside, ?_⟩
    · exact (byScore_perm.trans perm).nodup_iff.mpr distinct |>.sublist (List.take_sublist _ _)
    · rw [kept]
      exact (sameUpToTies_best_wanted_iff distinct distinctWanted perm).mpr covered

/-! ## Plain tags -/

theorem mem_rows_of_joined {κ : Type} [DecidableEq κ] {skills : RowTable SkillRow}
    {key : SkillRow → κ} {entries : List (κ × Rat)} {hit : SkillHit}
    (member : hit ∈ joined skills key entries) : hit.1 ∈ skills.rows := by
  obtain ⟨entry, -, found⟩ := List.mem_filterMap.mp member
  obtain ⟨row, isRow, rfl⟩ := Option.map_eq_some_iff.mp found
  exact List.mem_of_find?_eq_some isRow

section Agree

variable (ranking : SkillRanking V) {request : SkillRequest} {env : SkillEnv V} {s : SkillState V}
  (noIndex : (env.embedOne.bind fun embed => embed request.query) = none ∨ s.vecExtension = none)
  (agree : ∀ row ∈ s.skills.rows, coneWhere request row = true ↔ IsWanted request s row)

include agree in
theorem filter_coneWhere {hits : List SkillHit} (rows : ∀ hit ∈ hits, hit.1 ∈ s.skills.rows) :
    (hits.filter fun hit => coneWhere request hit.1) =
      hits.filter fun hit => IsWanted request s hit.1 := by
  apply List.filter_congr
  intro hit member
  rw [Bool.eq_iff_iff, agree hit.1 (rows hit member), decide_eq_true_eq]

include noIndex agree

/-- Without the index, all that can be ranked is looked at. -/
theorem foundHits_eq_wantedHits : (skillPath ranking request env s).answers = true ∧
    (skillPath ranking request env s).foundHits request =
      (skillPath ranking request env s).wantedHits request s := by
  have keyword : ∀ hit ∈ keywordHits ranking request s, hit.1 ∈ s.skills.rows := by
    intro hit member
    obtain ⟨row, isRow, rfl⟩ := List.mem_map.mp member
    exact List.mem_of_mem_filter isRow
  unfold skillPath
  cases embedded : env.embedOne.bind fun embed => embed request.query with
  | none =>
      refine ⟨rfl, ?_⟩
      unfold SkillPath.foundHits SkillPath.wantedHits keywordPath
      dsimp only
      rw [filter_coneWhere agree keyword]
  | some queryVec =>
      rw [noIndex.resolve_left (by simp [embedded])]
      have levels : (fun level => (jsonHits ranking queryVec s level).filter
          fun hit => coneWhere request hit.1) = fun level =>
            (jsonHits ranking queryVec s level).filter fun hit => IsWanted request s hit.1 :=
        funext fun level => filter_coneWhere agree fun hit => mem_rows_of_joined
      refine ⟨rfl, ?_⟩
      unfold SkillPath.foundHits SkillPath.wantedHits jsonPath
      dsimp only
      rw [levels]

/-- A search whose boundary lets in the wanted rows, and only these, finds what is wanted. -/
theorem findsByTag_of_agree : FindsByTag ranking request env s := by
  obtain ⟨answers, same⟩ := foundHits_eq_wantedHits ranking noIndex agree
  refine ⟨answers, ?_, ?_⟩
  · intro hit found unwanted
    exact absurd (same ▸ found) unwanted
  · intro hit wanted missed
    refine absurd ?_ missed
    rw [List.mem_filter, same]
    exact ⟨wanted, decide_eq_true wanted⟩

end Agree

/-- For plain tags and skills of one version, a search without the index keeps to the tags. -/
theorem searchesByTag_of_plain (ranking : SkillRanking V) (request : SkillRequest)
    (env : SkillEnv V) {vecExtension : Option (VecExtension V)}
    {calls : List (SkillEnv V × SkillEntry)} {s : SkillState V}
    (reached : run step (.empty vecExtension) calls = s)
    (plain : ∀ tag ∈ request.tags, PlainTag tag)
    (plainCalls : ∀ call ∈ calls, ∀ tag ∈ call.2.tags, PlainTag tag)
    (current : ∀ row ∈ s.skills.rows, s.currentRow row.skillName = some row)
    (noIndex : (env.embedOne.bind fun embed => embed request.query) = none ∨
      s.vecExtension = none) : SearchesByTag ranking request env s := by
  rw [searchesByTag_iff_findsByTag]
  apply findsByTag_of_agree ranking noIndex
  intro row member
  obtain ⟨call, last, tags⟩ := tags_run vecExtension calls (reached ▸ member)
  have given := plainCalls call (List.mem_of_mem_filter (List.mem_of_getLast? last))
  have listed : (∃ tag ∈ request.tags,
      likeAround row.tags.toList ('"' :: tag.toList ++ ['"']) = true) ↔
        ∃ tag ∈ request.tags, tag ∈ loadsTags row.tags := by
    refine exists_congr fun tag => and_congr_right fun isListed => ?_
    rw [tags, loadsTags_dumpsTags]
    exact likeAround_dumpsTags_iff (plain tag isListed) given
  unfold coneWhere IsWanted
  rw [decide_eq_true_eq, listed, and_iff_left (current row member)]

/-- After any calls of `upsert_skill`. -/
theorem searchesByTag_iff (ranking : SkillRanking V) (request : SkillRequest) (env : SkillEnv V)
    (vecExtension : Option (VecExtension V)) (calls : List (SkillEnv V × SkillEntry)) :
    SearchesByTag ranking request env (run step (.empty vecExtension) calls) ↔
      FindsByTag ranking request env (run step (.empty vecExtension) calls) :=
  searchesByTag_iff_findsByTag ranking request env _

/-! ## A wildcard in a tag -/

/-- All vectors are alike. -/
def unitRanking : SkillRanking Unit where
  fits _ := true
  maxNeighbours := 4096
  knn _ count index := (index.take count).map fun entry => (entry.1, 0)
  distance _ _ := 0
  nearest _ count index :=
    ⟨index.take count, index.drop count, by rw [List.take_append_drop], rfl, List.length_take,
      fun _ _ _ _ => le_refl 0⟩
  distance_nonneg _ _ := le_refl 0
  cosineSimilarity _ _ := 1
  lower := id

def syncCalls : List (SkillEnv Unit × SkillEntry) :=
  [(⟨1, none⟩, { skillName := "sync", describe := "copy files", tags := ["data-sync"] })]

def syncRequest : SkillRequest := { query := "copy", tags := ["data_sync"] }

/-- `data-sync` is found for `data_sync`. -/
theorem not_searchesByTag_sync :
    ¬SearchesByTag unitRanking syncRequest ⟨2, none⟩ (run step (.empty none) syncCalls) := by
  intro searches
  obtain ⟨hits, found, inside, -⟩ := searches ⟨id, fun _ => .refl _⟩
  have one : (searchHits unitRanking ⟨id, fun _ => .refl _⟩ syncRequest ⟨2, none⟩
      (run step (.empty none) syncCalls)).map List.length = some 1 := by
    decide +kernel
  have none : (skillPath unitRanking syncRequest ⟨2, none⟩
      (run step (.empty none) syncCalls)).wantedHits syncRequest
        (run step (.empty none) syncCalls) = [] := by
    decide +kernel
  rw [found] at one
  rw [none, List.subset_nil] at inside
  rw [inside] at one
  cases one

end YouMi.Mcp.SkillStore

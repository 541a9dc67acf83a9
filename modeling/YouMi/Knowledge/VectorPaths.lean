import YouMi.Knowledge.ResolvedEntries
import YouMi.Knowledge.TenantKnowledge
import YouMi.Library.Covered

/-!
# The two searches by vectors

`_vec0_search` filters a fixed number of neighbours, and `_json_search` ranks the entries that
were updated last.  Either finds the most similar entries of a tenant and a tool only if
enough of them are among what it looks at.
-/

namespace YouMi.Knowledge.GlobalMemory

open YouMi.Core YouMi.Library YouMi.Python

variable {V κ : Type} [LinearOrder κ]

def scoreOf (r : Retrieval V κ) (queryVec : V) (row : KnowledgeRow V) : κ :=
  r.similarity queryVec row.vector

/-- The entries of the tenant and the tool that are similar enough. -/
def similarRows (r : Retrieval V κ) (s : GlobalMemory) (base : KnowledgeBase V) (queryVec : V)
    (toolName : Option String) : List (KnowledgeRow V) :=
  (s.rows base).filter fun row => ofTool toolName row && r.similar (scoreOf r queryVec row)

/-- Those of them among the nearest neighbours. -/
def nearRows (r : Retrieval V κ) (s : GlobalMemory) (base : KnowledgeBase V) (queryVec : V)
    (toolName : Option String) (topK : Int) : List (KnowledgeRow V) :=
  (s.neighbours r toolName (topK * 3).toNat (distances r base queryVec)).map fun item => item.1.2

/-- Those of them among the thousand that were updated last. -/
def recentRows (r : Retrieval V κ) (s : GlobalMemory) (base : KnowledgeBase V) (queryVec : V)
    (toolName : Option String) : List (KnowledgeRow V) :=
  (s.selected r base toolName none false 1000).filter fun row =>
    r.similar (scoreOf r queryVec row)

/-- The index has the vectors of the table, and distances and similarities are exact for
them; the rows of a query are those of the table. -/
structure ExactVectors (r : Retrieval V κ) (base : KnowledgeBase V) (queryVec : V) : Prop where
  ordered : ∀ rows, (r.orderBy rows).Perm rows
  sameVectors : ∀ entry ∈ base.entries, entry.2.indexed = entry.2.vector.map r.normalize
  near_eq : ∀ entry ∈ base.entries, ∀ vec, entry.2.vector = some vec →
    r.near (r.distance (r.normalize queryVec) (r.normalize vec)) =
      r.similar (r.similarity queryVec (some vec))
  closer : ∀ first ∈ base.entries, ∀ second ∈ base.entries, ∀ vec other,
    first.2.vector = some vec → second.2.vector = some other →
    r.distance (r.normalize queryVec) (r.normalize vec) ≤
        r.distance (r.normalize queryVec) (r.normalize other) →
      r.similarity queryVec (some other) ≤ r.similarity queryVec (some vec)
  missing : r.similar (r.similarity queryVec none) = false
  upward : ∀ low high, low ≤ high → r.similar low = true → r.similar high = true

/-- Both searches return the best of the similar entries, in the same order up to ties. -/
def SearchesAgree (r : Retrieval V κ) (s : GlobalMemory) (base : KnowledgeBase V) (queryVec : V)
    (toolName : Option String) (topK : Int) : Prop :=
  let best := best (scoreOf r queryVec) topK.toNat (s.similarRows r base queryVec toolName)
  let recent := s.jsonSearch r base queryVec toolName topK
  ∃ near, s.vec0Search r base queryVec toolName topK = some near ∧
    SameUpToTies (scoreOf r queryVec) topK.toNat near best ∧
    SameUpToTies (scoreOf r queryVec) topK.toNat recent best ∧
    SameUpToTies (scoreOf r queryVec) topK.toNat near recent

/-- The index takes the query and the number of neighbours, and what either search does not
look at has enough entries above it that it does look at. -/
structure SearchesCover (r : Retrieval V κ) (s : GlobalMemory) (base : KnowledgeBase V)
    (queryVec : V) (toolName : Option String) (topK : Int) : Prop where
  fits : r.fits queryVec = true
  limits : 0 ≤ topK ∧ topK * 3 ≤ r.maxNeighbours
  near : Covered (scoreOf r queryVec) topK.toNat (s.nearRows r base queryVec toolName topK)
    (s.similarRows r base queryVec toolName)
  recent : Covered (scoreOf r queryVec) topK.toNat (s.recentRows r base queryVec toolName)
    (s.similarRows r base queryVec toolName)

section Paths

variable {r : Retrieval V κ} {s : GlobalMemory} {base : KnowledgeBase V} {queryVec : V}
  {toolName : Option String} {topK : Int}

omit [LinearOrder κ] in
theorem nodup_rows (keyed : base.Keyed) : (base.entries.map Prod.snd).Nodup := by
  refine List.Nodup.of_map (fun row => row.entry.entryId) ?_
  rw [List.map_map]
  have keys : base.entries.map ((fun row : KnowledgeRow V => row.entry.entryId) ∘ Prod.snd) =
      base.entries.keys := List.map_congr_left keyed.ids
  exact keys ▸ keyed.distinct

omit [LinearOrder κ] in
theorem nodup_similarRows (keyed : base.Keyed) :
    (s.similarRows r base queryVec toolName).Nodup :=
  ((nodup_rows keyed).filter _).filter _

/-! ### The entries that were updated last -/

theorem jsonSearch_eq (isExact : ExactVectors r base queryVec) (nonneg : 0 ≤ topK) :
    s.jsonSearch r base queryVec toolName topK =
      best (scoreOf r queryVec) topK.toNat (s.recentRows r base queryVec toolName) := by
  unfold jsonSearch recentRows
  dsimp only
  rw [Mcp.sliceTo_of_nonneg nonneg]
  exact filter_best (fun _ _ _ _ higher => isExact.upward _ _ higher) topK.toNat

omit [LinearOrder κ] in
theorem selected_eq_take : s.selected r base toolName none false 1000 =
    (r.orderBy ((s.rows base).filter (ofTool toolName))).take 1000 := by
  unfold selected limitedTo
  simp

omit [LinearOrder κ] in
theorem nodup_recentRows (ordered : ∀ rows, (r.orderBy rows).Perm rows) (keyed : base.Keyed) :
    (s.recentRows r base queryVec toolName).Nodup := by
  unfold recentRows
  rw [selected_eq_take]
  refine List.Nodup.filter _ (List.Nodup.sublist (List.take_sublist _ _) ?_)
  exact (ordered _).nodup_iff.mpr (((nodup_rows keyed).filter _).filter _)

omit [LinearOrder κ] in
theorem recentRows_subset (ordered : ∀ rows, (r.orderBy rows).Perm rows) :
    s.recentRows r base queryVec toolName ⊆ s.similarRows r base queryVec toolName := by
  intro row member
  unfold recentRows at member
  rw [selected_eq_take, List.mem_filter] at member
  obtain ⟨recent, similar⟩ := member
  obtain ⟨own, ofTool⟩ := List.mem_filter.mp ((ordered _).mem_iff.mp (List.mem_of_mem_take recent))
  exact List.mem_filter.mpr ⟨own, by rw [ofTool, similar]; rfl⟩

theorem sameUpToTies_recent_iff (isExact : ExactVectors r base queryVec) (keyed : base.Keyed)
    (nonneg : 0 ≤ topK) :
    SameUpToTies (scoreOf r queryVec) topK.toNat (s.jsonSearch r base queryVec toolName topK)
        (best (scoreOf r queryVec) topK.toNat (s.similarRows r base queryVec toolName)) ↔
      Covered (scoreOf r queryVec) topK.toNat (s.recentRows r base queryVec toolName)
        (s.similarRows r base queryVec toolName) := by
  rw [jsonSearch_eq isExact nonneg]
  exact sameUpToTies_best_iff_covered (nodup_recentRows isExact.ordered keyed)
    (recentRows_subset isExact.ordered) (nodup_similarRows keyed)

/-! ### The nearest neighbours -/

omit [LinearOrder κ] in
theorem mem_distances {item : (String × KnowledgeRow V) × κ} :
    item ∈ distances r base queryVec ↔ item.1 ∈ base.entries ∧
      ∃ vec, item.1.2.indexed = some vec ∧ item.2 = r.distance (r.normalize queryVec) vec := by
  unfold distances
  rw [List.mem_filterMap]
  constructor
  · rintro ⟨entry, member, found⟩
    obtain ⟨vec, isVec, rfl⟩ := Option.map_eq_some_iff.mp found
    exact ⟨member, vec, isVec, rfl⟩
  · rintro ⟨member, vec, isVec, isDistance⟩
    refine ⟨item.1, member, ?_⟩
    rw [isVec, Option.map_some, ← isDistance]

omit [LinearOrder κ] in
theorem map_row_distances : (distances r base queryVec).map (fun item => item.1.2) =
    (base.entries.filter fun entry => entry.2.indexed.isSome).map Prod.snd := by
  unfold distances
  induction base.entries with
  | nil => rfl
  | cons entry rest ih =>
      rw [List.filterMap_cons, List.filter_cons]
      cases entry.2.indexed with
      | none => simpa using ih
      | some vec => simpa using ih

/-- The accepted neighbours are some of the distances, in their order. -/
theorem neighbours_sublist (fetchK : Nat) :
    (s.neighbours r toolName fetchK (distances r base queryVec)).Sublist
      (nearest (distances r base queryVec)) :=
  List.filter_sublist.trans (List.take_sublist _ _)

theorem nodup_nearRows (keyed : base.Keyed) :
    (s.nearRows r base queryVec toolName topK).Nodup := by
  have all : ((nearest (distances r base queryVec)).map fun item => item.1.2).Nodup := by
    refine (byScore_perm.map _).nodup_iff.mpr ?_
    rw [map_row_distances]
    exact (nodup_rows keyed).sublist (List.filter_sublist.map _)
  exact all.sublist ((neighbours_sublist _).map _)

/-- A neighbour has the similarity that its distance stands for. -/
theorem mem_nearest (isExact : ExactVectors r base queryVec)
    {item : (String × KnowledgeRow V) × κ} (member : item ∈ nearest (distances r base queryVec)) :
    item.1 ∈ base.entries ∧ ∃ vec, item.1.2.vector = some vec ∧
      item.2 = r.distance (r.normalize queryVec) (r.normalize vec) := by
  obtain ⟨stands, stored, isStored, isDistance⟩ := mem_distances.mp (byScore_perm.mem_iff.mp member)
  rw [isExact.sameVectors item.1 stands] at isStored
  obtain ⟨vec, isVec, rfl⟩ := Option.map_eq_some_iff.mp isStored
  exact ⟨stands, vec, isVec, isDistance⟩

theorem nearRows_subset (isExact : ExactVectors r base queryVec) :
    s.nearRows r base queryVec toolName topK ⊆ s.similarRows r base queryVec toolName := by
  intro row member
  obtain ⟨item, isNear, rfl⟩ := List.mem_map.mp member
  obtain ⟨stands, vec, isVec, isDistance⟩ :=
    mem_nearest isExact ((neighbours_sublist _).subset isNear)
  have accepted := (List.mem_filter.mp isNear).2
  unfold accepts at accepted
  rw [Bool.and_eq_true, Bool.and_eq_true, isDistance, isExact.near_eq _ stands vec isVec]
    at accepted
  obtain ⟨⟨named, own⟩, similar⟩ := accepted
  refine List.mem_filter.mpr ⟨List.mem_filter.mpr ⟨List.mem_map_of_mem stands, own⟩, ?_⟩
  unfold scoreOf
  rw [named, isVec, similar]
  rfl

theorem falling_nearRows (isExact : ExactVectors r base queryVec) :
    (s.nearRows r base queryVec toolName topK).Pairwise fun first second =>
      scoreOf r queryVec second ≤ scoreOf r queryVec first := by
  have order : (nearest (distances r base queryVec)).Pairwise fun first second =>
      OrderDual.toDual second.2 ≤ OrderDual.toDual first.2 := byScore_pairwise
  refine List.pairwise_map.mpr (((order.imp_of_mem fun hfirst hsecond closer => ?_).sublist
    (neighbours_sublist _)))
  obtain ⟨first, vec, isVec, isFirst⟩ := mem_nearest isExact hfirst
  obtain ⟨second, other, isOther, isSecond⟩ := mem_nearest isExact hsecond
  unfold scoreOf
  rw [isVec, isOther]
  refine isExact.closer _ first _ second vec other isVec isOther ?_
  rw [← isFirst, ← isSecond]
  exact OrderDual.toDual_le_toDual.mp closer

theorem vec0Search_eq (isExact : ExactVectors r base queryVec) (fits : r.fits queryVec = true)
    (limits : 0 ≤ topK ∧ topK * 3 ≤ r.maxNeighbours) :
    s.vec0Search r base queryVec toolName topK =
      some (best (scoreOf r queryVec) topK.toNat (s.nearRows r base queryVec toolName topK)) := by
  unfold vec0Search
  dsimp only
  rw [if_pos ⟨fits, by omega, limits.2⟩, ← Mcp.sliceTo_map, Mcp.sliceTo_of_nonneg limits.1,
    ← take_eq_best (falling_nearRows isExact)]
  rfl

theorem sameUpToTies_near_iff (isExact : ExactVectors r base queryVec) (keyed : base.Keyed) :
    SameUpToTies (scoreOf r queryVec) topK.toNat
        (best (scoreOf r queryVec) topK.toNat (s.nearRows r base queryVec toolName topK))
        (best (scoreOf r queryVec) topK.toNat (s.similarRows r base queryVec toolName)) ↔
      Covered (scoreOf r queryVec) topK.toNat (s.nearRows r base queryVec toolName topK)
        (s.similarRows r base queryVec toolName) :=
  sameUpToTies_best_iff_covered (nodup_nearRows keyed) (nearRows_subset isExact)
    (nodup_similarRows keyed)

/-- The index answers only where it takes the query and the number of neighbours. -/
theorem limits_of_vec0Search {near : List (KnowledgeRow V)}
    (found : s.vec0Search r base queryVec toolName topK = some near) :
    r.fits queryVec = true ∧ 0 ≤ topK ∧ topK * 3 ≤ r.maxNeighbours := by
  unfold vec0Search at found
  dsimp only at found
  split at found
  · rename_i limits
    exact ⟨limits.1, by omega, limits.2.2⟩
  · cases found

end Paths

/-- The two searches agree on the best of the similar entries exactly where both look at enough
of them. -/
theorem searchesAgree_iff (r : Retrieval V κ) (s : GlobalMemory) (base : KnowledgeBase V)
    (queryVec : V) (toolName : Option String) (topK : Int) (keyed : base.Keyed)
    (isExact : ExactVectors r base queryVec) :
    s.SearchesAgree r base queryVec toolName topK ↔
      s.SearchesCover r base queryVec toolName topK := by
  constructor
  · rintro ⟨near, found, isNear, isRecent, -⟩
    obtain ⟨fits, limits⟩ := limits_of_vec0Search found
    rw [vec0Search_eq isExact fits limits] at found
    obtain rfl := Option.some.inj found
    exact ⟨fits, limits, (sameUpToTies_near_iff isExact keyed).mp isNear,
      (sameUpToTies_recent_iff isExact keyed limits.1).mp isRecent⟩
  · rintro ⟨fits, limits, near, recent⟩
    have isNear := (sameUpToTies_near_iff isExact keyed).mpr near
    have isRecent := (sameUpToTies_recent_iff isExact keyed limits.1).mpr recent
    exact ⟨_, vec0Search_eq isExact fits limits, isNear, isRecent, isNear.of_common isRecent⟩

/-! ## Entries of another tenant -/

def vectorRow (entryId tenant : String) (vector : Int) : String × KnowledgeRow Int :=
  (entryId,
    { entry := { entryId := entryId, tenant := tenant, createdAt := 0, updatedAt := 0 }
      indexed := some vector
      vector := some vector })

/-- Three entries of a tenant that are nearer to zero than the entry of another. -/
def apartFromZero : KnowledgeBase Int where
  entries := [vectorRow "a" "u" 0, vectorRow "b" "u" 0, vectorRow "c" "u" 0, vectorRow "d" "t" 1]

theorem keyed_apartFromZero : apartFromZero.Keyed := ⟨by decide, by decide⟩

theorem exactVectors_apartFromZero : ExactVectors onLine apartFromZero 0 where
  ordered := fun rows => .refl rows
  sameVectors := by decide
  near_eq := by
    intro entry _ vec _
    have same : |0 - vec| < 10 ↔ 0 < 10 - |0 - vec| := by omega
    exact decide_eq_decide.mpr same
  closer := by
    intro first _ second _ vec other _ _ nearer
    exact Int.sub_le_sub_left nearer 10
  missing := by decide
  upward := by
    intro low high above similar
    exact decide_eq_true (lt_of_lt_of_le (of_decide_eq_true similar) above)

theorem not_searchesAgree_apartFromZero : apartFromZero.Keyed ∧
    ExactVectors onLine apartFromZero 0 ∧
      ¬ofTenantT.SearchesAgree onLine apartFromZero 0 none 1 := by
  refine ⟨keyed_apartFromZero, exactVectors_apartFromZero, ?_⟩
  rintro ⟨near, found, same, -⟩
  have nothing : (ofTenantT.vec0Search onLine apartFromZero 0 none 1).map List.length = some 0 := by
    decide
  rw [found] at nothing
  have lengths := congrArg List.length same.1
  rw [List.length_map, List.length_map, Option.some.inj nothing] at lengths
  revert lengths
  decide

theorem searchesAgree_iff_apartFromZero :
    ofTenantT.SearchesAgree onLine apartFromZero 0 none 1 ↔
      ofTenantT.SearchesCover onLine apartFromZero 0 none 1 :=
  searchesAgree_iff onLine ofTenantT apartFromZero 0 none 1 keyed_apartFromZero
    exactVectors_apartFromZero

end YouMi.Knowledge.GlobalMemory

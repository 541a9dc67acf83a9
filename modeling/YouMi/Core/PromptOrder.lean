import YouMi.Core.Prompt

/-!
# Which layers a prompt keeps

In the order of their priorities the layers are whole up to a first one that is cut or
dropped, and after it nothing is emitted.  Layers of priority zero come first, and are whole.
-/

namespace YouMi.Core

/-- What becomes of the layers: some are whole, one may be cut to a length, the rest is
dropped. -/
structure Emission where
  whole : List PromptLayer := []
  cut : Option (PromptLayer × Nat) := none
  dropped : List PromptLayer := []

namespace Emission

/-- The layers from the one that is cut. -/
def later (emission : Emission) : List PromptLayer :=
  (emission.cut.map Prod.fst).toList ++ emission.dropped

def layers (emission : Emission) : List PromptLayer := emission.whole ++ emission.later

def emits (emission : Emission) : List PromptLayer :=
  emission.whole ++ (emission.cut.map fun cut => cut.1.cutTo cut.2).toList

/-- The prompt has the layers that were registered, in their order, down to one that lacks
the tokens. -/
structure KeepsPriorities (emission : Emission) (registered : List PromptLayer) (maxTokens : Int)
    (prompt : String) : Prop where
  order : emission.layers.Pairwise fun first second => first.priority ≤ second.priority
  insertion : ∀ priority, emission.layers.filter (fun layer => layer.priority = priority) =
    registered.filter fun layer => layer.priority = priority
  base : ∀ layer ∈ emission.later, layer.priority ≠ 0
  lack : emission.later = [] ∨
    0 < maxTokens ∧ maxTokens < ((registered.map PromptLayer.charge).sum : Nat)
  prompt : prompt = joinLayers emission.emits

/-- One more whole layer, before the others. -/
def withWhole (layer : PromptLayer) (emission : Emission) : Emission :=
  { emission with whole := layer :: emission.whole }

end Emission

section Allocate

variable {layers : List PromptLayer}

/-- Nothing is left for layers that are not of priority zero. -/
theorem allocate_exhausted (others : ∀ layer ∈ layers, layer.priority ≠ 0) {remaining : Int}
    (none : remaining ≤ 0) :
    allocate remaining (layers.map fun layer => (layer, layer.charge)) = [] := by
  induction layers with
  | nil => rfl
  | cons layer rest ih =>
      rw [List.map_cons, allocate, if_neg (others layer List.mem_cons_self), if_pos none]
      exact ih fun layer member => others layer (List.mem_cons_of_mem _ member)

theorem exists_emission_of_others (others : ∀ layer ∈ layers, layer.priority ≠ 0)
    (remaining : Int) : ∃ emission : Emission, emission.layers = layers ∧
      allocate remaining (layers.map fun layer => (layer, layer.charge)) = emission.emits := by
  induction layers generalizing remaining with
  | nil => exact ⟨{}, rfl, rfl⟩
  | cons layer rest ih =>
      have later : ∀ layer ∈ rest, layer.priority ≠ 0 := fun layer member =>
        others layer (List.mem_cons_of_mem _ member)
      by_cases none : remaining ≤ 0
      · refine ⟨{ dropped := layer :: rest }, rfl, ?_⟩
        rw [allocate_exhausted others none]
        rfl
      · rw [List.map_cons, allocate, if_neg (others layer List.mem_cons_self), if_neg none]
        split
        · obtain ⟨emission, same, emits⟩ := ih later (remaining - layer.charge)
          refine ⟨emission.withWhole layer, congrArg (layer :: ·) same, ?_⟩
          rw [emits]
          rfl
        · refine ⟨{ cut := some (layer, layer.keptLength remaining.toNat layer.charge),
                    dropped := rest }, rfl, ?_⟩
          rw [allocate_exhausted later (Int.le_refl 0)]
          rfl

/-- In the order of priorities the layers of priority zero come first. -/
theorem priority_ne_zero_of_order {layer : PromptLayer}
    (least : ∀ other ∈ layers, layer.priority ≤ other.priority) (apart : layer.priority ≠ 0) :
    ∀ other ∈ layer :: layers, other.priority ≠ 0 := by
  intro other member
  rcases List.mem_cons.mp member with rfl | member
  · exact apart
  · exact fun zero => apart (Fin.le_zero_iff.mp (zero ▸ least other member))

theorem exists_emission
    (order : layers.Pairwise fun first second => first.priority ≤ second.priority)
    (remaining : Int) : ∃ emission : Emission, emission.layers = layers ∧
      (∀ layer ∈ emission.later, layer.priority ≠ 0) ∧
      allocate remaining (layers.map fun layer => (layer, layer.charge)) = emission.emits := by
  induction layers with
  | nil => exact ⟨{}, rfl, nofun, rfl⟩
  | cons layer rest ih =>
      obtain ⟨least, order⟩ := List.pairwise_cons.mp order
      by_cases base : layer.priority = 0
      · obtain ⟨emission, same, later, emits⟩ := ih order
        refine ⟨emission.withWhole layer, congrArg (layer :: ·) same, later, ?_⟩
        rw [List.map_cons, allocate, if_pos base, emits]
        rfl
      · have others := priority_ne_zero_of_order least base
        obtain ⟨emission, same, emits⟩ := exists_emission_of_others others remaining
        refine ⟨emission, same, fun other member => others other ?_, emits⟩
        rw [← same]
        exact List.mem_append_right _ member

end Allocate

namespace PromptAssembler

variable {assembler : PromptAssembler}

theorem sum_charge_sorted :
    (assembler.sorted.map PromptLayer.charge).sum =
      (assembler.layers.map PromptLayer.charge).sum :=
  (perm_sorted.map PromptLayer.charge).sum_nat

theorem assemble_eq (maxTokens : Int) :
    assembler.assemble maxTokens = joinLayers (assembler.emitted maxTokens) := by
  unfold assemble
  split
  · rename_i none
    have nothing : assembler.sorted = [] := by
      unfold sorted
      rw [none]
      rfl
    unfold emitted
    rw [nothing]
    dsimp only
    split <;> rfl
  · rfl

/-- Every prompt keeps the layers by priority. -/
theorem keepsPriorities_emitted (assembler : PromptAssembler) (maxTokens : Int) :
    ∃ emission : Emission,
      emission.KeepsPriorities assembler.layers maxTokens (assembler.assemble maxTokens) := by
  rw [assemble_eq]
  unfold emitted
  dsimp only
  rw [List.map_map, Function.comp_def]
  split
  · refine ⟨{ whole := assembler.sorted }, ?_, ?_, nofun, .inl rfl, ?_⟩
    · simpa [Emission.layers, Emission.later] using pairwise_sorted
    · simpa [Emission.layers, Emission.later] using filter_sorted
    · simp [Emission.emits]
  · rename_i exceeds
    rw [not_or, not_le, not_le] at exceeds
    obtain ⟨emission, same, later, emits⟩ := exists_emission pairwise_sorted
      (maxTokens - _)
    refine ⟨emission, same ▸ pairwise_sorted, fun priority => same ▸ filter_sorted priority, later,
      .inr ⟨exceeds.1, ?_⟩, congrArg joinLayers emits⟩
    rw [← sum_charge_sorted]
    exact exceeds.2

/-- The prompt of the layers that are added keeps them by priority, and of one priority in the
order in which they were added last. -/
theorem assemble_keepsPriorities (added : List PromptLayer) (maxTokens : Int) :
    ∃ emission : Emission,
      emission.KeepsPriorities (added.pwFilter fun first second => first.name ≠ second.name)
        maxTokens ((added.foldl addLayer {}).assemble maxTokens) := by
  have registered := layers_foldl_addLayer added {}
  rw [List.filter_nil, List.nil_append] at registered
  rw [← registered]
  exact keepsPriorities_emitted _ maxTokens

end PromptAssembler

end YouMi.Core

/-!
## How many tokens a prompt has

The assembler counts each layer as its estimate or its budget, whichever is less, but joins
the contents whole: a budget cuts nothing.  What a prompt amounts to is told from what the
layers before each one are charged, and from the characters of the texts.
-/

namespace YouMi.Core

open YouMi.Python

/-! ## Shares of a prompt -/

namespace PromptLayer

/-- The layer as it is emitted when the layers before it have been charged so much. -/
def share (maxTokens spent : Nat) (layer : PromptLayer) : PromptLayer :=
  if layer.priority = 0 ∨ spent + layer.charge ≤ maxTokens then layer
  else if spent < maxTokens then layer.cutTo (layer.keptLength (maxTokens - spent) layer.charge)
  else { layer with content := "" }

def chineseChars (layer : PromptLayer) : Nat := layer.text.toList.countP isChinese

def totalChars (layer : PromptLayer) : Nat := layer.text.toList.length

end PromptLayer

def shares (maxTokens : Nat) : Nat → List PromptLayer → List PromptLayer
  | _, [] => []
  | spent, layer :: rest =>
      layer.share maxTokens spent :: shares maxTokens (spent + layer.charge) rest

/-- The layers that are more than white space. -/
def shown (layers : List PromptLayer) : List PromptLayer :=
  layers.filter fun layer => layer.text ≠ ""

section Shares

variable {maxTokens spent : Nat} {layers : List PromptLayer}

theorem shares_of_fits (fits : spent + (layers.map PromptLayer.charge).sum ≤ maxTokens) :
    shares maxTokens spent layers = layers := by
  induction layers generalizing spent with
  | nil => rfl
  | cons layer rest ih =>
      rw [List.map_cons, List.sum_cons, ← Nat.add_assoc] at fits
      have here : spent + layer.charge ≤ maxTokens := le_trans (Nat.le_add_right ..) fits
      rw [shares, ih fits, PromptLayer.share, if_pos (.inr here)]

theorem shown_cons_of_empty {layer : PromptLayer} (empty : layer.content = "") :
    shown (layer :: layers) = shown layers :=
  List.filter_cons_of_neg (by simpa using PromptLayer.text_of_content_eq_empty empty)

theorem shown_cons_congr {layer : PromptLayer} {others : List PromptLayer}
    (same : shown layers = shown others) : shown (layer :: layers) = shown (layer :: others) := by
  unfold shown at same ⊢
  rw [List.filter_cons, List.filter_cons, same]

/-- Once the tokens are spent nothing more is shown. -/
theorem shown_shares_exhausted (others : ∀ layer ∈ layers, layer.priority ≠ 0)
    (exhausted : maxTokens ≤ spent) : shown (shares maxTokens spent layers) = [] := by
  induction layers generalizing spent with
  | nil => rfl
  | cons layer rest ih =>
      have later := ih (fun other member => others other (List.mem_cons_of_mem _ member))
        (le_trans exhausted (Nat.le_add_right spent layer.charge))
      have empty : (layer.share maxTokens spent).content = "" := by
        unfold PromptLayer.share
        split
        · rename_i whole
          have free := whole.resolve_left (others layer List.mem_cons_self)
          exact PromptLayer.charge_eq_zero_iff.mp (by omega)
        · rw [if_neg (by omega)]
      rw [shares, shown_cons_of_empty empty, later]

theorem shown_allocate_others (others : ∀ layer ∈ layers, layer.priority ≠ 0) :
    shown (allocate (maxTokens - spent) (layers.map fun layer => (layer, layer.charge))) =
      shown (shares maxTokens spent layers) := by
  by_cases exhausted : maxTokens ≤ spent
  · rw [allocate_exhausted others (by omega), shown_shares_exhausted others exhausted]
    rfl
  · induction layers generalizing spent with
    | nil => rfl
    | cons layer rest ih =>
        have later : ∀ other ∈ rest, other.priority ≠ 0 := fun other member =>
          others other (List.mem_cons_of_mem _ member)
        have apart := others layer List.mem_cons_self
        rw [List.map_cons, allocate, if_neg apart, if_neg (by omega), shares, PromptLayer.share]
        by_cases whole : spent + layer.charge ≤ maxTokens
        · rw [if_pos (by omega), if_pos (.inr whole)]
          apply shown_cons_congr
          have left : (maxTokens : Int) - spent - layer.charge =
              maxTokens - (spent + layer.charge : Nat) := by omega
          rw [left]
          by_cases exceeds : maxTokens ≤ spent + layer.charge
          · rw [allocate_exhausted later (by omega), shown_shares_exhausted later exceeds]
            rfl
          · exact ih later exceeds
        · have left : ((maxTokens : Int) - spent).toNat = maxTokens - spent := by omega
          rw [if_neg (by omega), if_neg (not_or_intro apart whole), if_pos (by omega), left]
          apply shown_cons_congr
          rw [allocate_exhausted later (Int.le_refl 0), shown_shares_exhausted later (by omega)]
          rfl

/-- The tokens that the layers of priority zero are charged. -/
def reserved (layers : List PromptLayer) : Nat :=
  ((layers.filter fun layer => layer.priority = 0).map PromptLayer.charge).sum

theorem shown_allocate
    (order : layers.Pairwise fun first second => first.priority ≤ second.priority) :
    shown (allocate (maxTokens - (spent + reserved layers : Nat))
        (layers.map fun layer => (layer, layer.charge))) =
      shown (shares maxTokens spent layers) := by
  induction layers generalizing spent with
  | nil => rfl
  | cons layer rest ih =>
      obtain ⟨least, order⟩ := List.pairwise_cons.mp order
      by_cases base : layer.priority = 0
      · have sum : spent + reserved (layer :: rest) = spent + layer.charge + reserved rest := by
          unfold reserved
          rw [List.filter_cons_of_pos (by simpa using base), List.map_cons, List.sum_cons,
            Nat.add_assoc]
        rw [List.map_cons, allocate, if_pos base, shares, PromptLayer.share, if_pos (.inl base),
          sum]
        exact shown_cons_congr (ih order)
      · have others := priority_ne_zero_of_order least base
        have none : reserved (layer :: rest) = 0 := by
          unfold reserved
          rw [List.filter_eq_nil_iff.mpr fun other member => by simpa using others other member]
          rfl
        rw [none]
        exact shown_allocate_others others

end Shares

/-! ## Counts of a text -/

theorem countP_intercalate {α : Type*} (p : α → Bool) (separator : List α) (parts : List (List α)) :
    (separator.intercalate parts).countP p =
      (parts.map (List.countP p)).sum + separator.countP p * (parts.length - 1) := by
  induction parts with
  | nil => rfl
  | cons first rest ih =>
      cases rest with
      | nil => simp
      | cons second rest =>
          have sum : ((first :: second :: rest).map (List.countP p)).sum =
              first.countP p + ((second :: rest).map (List.countP p)).sum := by
            rw [List.map_cons, List.sum_cons]
          have more : separator.countP p * ((first :: second :: rest).length - 1) =
              separator.countP p + separator.countP p * ((second :: rest).length - 1) := by
            rw [List.length_cons, List.length_cons, Nat.add_sub_cancel, Nat.add_sub_cancel,
              Nat.mul_succ, Nat.add_comm]
          rw [List.intercalate_cons_cons, List.countP_append, List.countP_append, ih, sum, more]
          omega

theorem estimateTokens_joinLayers (layers : List PromptLayer) :
    estimateTokens (joinLayers layers) =
      estimateOf ((shown layers).map PromptLayer.chineseChars).sum
        (((shown layers).map PromptLayer.totalChars).sum + 2 * ((shown layers).length - 1)) := by
  have texts : (joinLayers layers).toList =
      "\n\n".toList.intercalate ((shown layers).map fun layer => layer.text.toList) := by
    unfold joinLayers
    rw [String.toList_intercalate, List.map_map]
    rfl
  have chinese : ((joinLayers layers).toList.countP isChinese) =
      ((shown layers).map PromptLayer.chineseChars).sum := by
    have none : "\n\n".toList.countP isChinese = 0 := by decide
    unfold PromptLayer.chineseChars
    rw [texts, countP_intercalate, none, Nat.zero_mul, Nat.add_zero, List.map_map,
      Function.comp_def]
  have total : (joinLayers layers).toList.length =
      ((shown layers).map PromptLayer.totalChars).sum + 2 * ((shown layers).length - 1) := by
    have two : "\n\n".toList.length = 2 := by decide
    unfold PromptLayer.totalChars
    rw [texts, ← List.countP_true, countP_intercalate, List.countP_true, two, List.map_map,
      List.length_map, Function.comp_def]
  unfold estimateTokens
  rw [chinese, total]

/-! ## Budgets -/

namespace PromptAssembler

variable {assembler : PromptAssembler}

/-- The layers of priority zero alone make a prompt within the limit. -/
def BaseFits (assembler : PromptAssembler) (maxTokens : Nat) : Prop :=
  estimateTokens (joinLayers (assembler.layers.filter fun layer => layer.priority = 0)) ≤ maxTokens

/-- No text of a layer is more than the budget of the layer. -/
def WithinBudgets (layers : List PromptLayer) : Prop :=
  ∀ layer ∈ layers, 0 < layer.tokenBudget → estimateTokens layer.text ≤ layer.tokenBudget

/-- The prompt is within the limit if the layers of priority zero are, and what each layer
contributes is within its budget. -/
def MeetsBudgets (assembler : PromptAssembler) (maxTokens : Nat) : Prop :=
  (assembler.BaseFits maxTokens → estimateTokens (assembler.assemble maxTokens) ≤ maxTokens) ∧
    WithinBudgets (assembler.emitted maxTokens)

/-- The characters of the shares, with two for every gap between them, are within the limit,
and every share is within its budget. -/
def SharesFit (assembler : PromptAssembler) (maxTokens : Nat) : Prop :=
  let parts := shown (shares maxTokens 0 assembler.sorted)
  (assembler.BaseFits maxTokens →
      estimateOf (parts.map PromptLayer.chineseChars).sum
        ((parts.map PromptLayer.totalChars).sum + 2 * (parts.length - 1)) ≤ maxTokens) ∧
    WithinBudgets parts

theorem shown_emitted {maxTokens : Nat} (limited : 0 < maxTokens) :
    shown (assembler.emitted maxTokens) = shown (shares maxTokens 0 assembler.sorted) := by
  unfold emitted
  dsimp only
  rw [List.map_map, Function.comp_def]
  split
  · rename_i fits
    have total : (assembler.sorted.map PromptLayer.charge).sum ≤ maxTokens := by
      have limit := fits.resolve_left (by omega)
      exact Int.ofNat_le.mp limit
    rw [shares_of_fits (by rwa [Nat.zero_add])]
  · have base : ((assembler.sorted.map fun layer => (layer, layer.charge)).filter
        fun entry => entry.1.priority = 0).map Prod.snd =
          (assembler.sorted.filter fun layer => layer.priority = 0).map PromptLayer.charge := by
      rw [List.filter_map, List.map_map]
      rfl
    rw [base, ← shown_allocate pairwise_sorted, Nat.zero_add]
    rfl

theorem withinBudgets_shown {layers : List PromptLayer} :
    WithinBudgets (shown layers) ↔ WithinBudgets layers := by
  constructor
  · intro within layer member limited
    by_cases blank : layer.text = ""
    · rw [blank]
      exact Nat.zero_le _
    · exact within layer (List.mem_filter.mpr ⟨member, decide_eq_true blank⟩) limited
  · exact fun within layer member => within layer (List.mem_of_mem_filter member)

/-- Six tokens of a layer are charged as its budget of one, and emitted whole. -/
def notes : PromptAssembler :=
  ({} : PromptAssembler).addLayer
    { name := "notes", content := "aaaaaaaaaaaaaaaaaaaaaaaa", tokenBudget := 1 }

end PromptAssembler

end YouMi.Core

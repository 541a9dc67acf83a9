import Mathlib.Data.List.Chain
import Mathlib.Data.List.Induction
import Mathlib.Data.List.Nodup
import Mathlib.Data.List.Perm.Subperm
import Mathlib.Logic.Function.Basic
import Mathlib.Order.Bounds.Defs
import YouMi.Library.DepthFirst

/-!
# Layers of a dependency graph

Nodes whose dependencies are all done make up the next layer.  The number of open
dependencies of every node is kept up to date, and a node joins the next layer when
its number reaches zero.
-/

namespace YouMi.Library.Layers

variable {α : Type*} [DecidableEq α]

/-- The nodes that depend on a node, each as often as it names it. -/
def children (nodes : List α) (dependencies : α → List α) (node : α) : List α :=
  nodes.flatMap fun child => List.replicate ((dependencies child).count node) child

/-- One dependency of a child is done. -/
def relax (state : (α → Int) × List α) (child : α) : (α → Int) × List α :=
  let degree := state.1 child - 1
  (Function.update state.1 child degree,
    if degree = 0 then state.2 ++ [child] else state.2)

/-- The layer that waits, and those after it. -/
def layersFrom (children : α → List α) : Nat → (α → Int) → List α → List (List α)
  | 0, _, _ => []
  | fuel + 1, degrees, queue =>
      if queue = [] then []
      else
        let relaxed := (queue.flatMap children).foldl relax (degrees, [])
        queue :: layersFrom children fuel relaxed.1 relaxed.2

def layers (nodes : List α) (dependencies : α → List α) : List (List α) :=
  layersFrom (children nodes dependencies) (nodes.length + 1)
    (fun node => (dependencies node).length)
    (nodes.filter fun node => ((dependencies node).length : Int) = 0)

/-! ## Relaxing a list of children -/

section Relax

variable {degrees : α → Int} {queue : List α}

theorem relax_eq (child : α) :
    relax (degrees, queue) child = (Function.update degrees child (degrees child - 1),
      if degrees child - 1 = 0 then queue ++ [child] else queue) := rfl

theorem foldl_relax_degree (events : List α) (node : α) :
    (events.foldl relax (degrees, queue)).1 node = degrees node - events.count node := by
  induction events generalizing degrees queue with
  | nil => simp
  | cons child rest ih =>
      rw [List.foldl_cons, relax_eq, ih, List.count_cons]
      by_cases same : node = child
      · rw [same, Function.update_self, beq_self_eq_true, if_pos rfl]
        push_cast
        omega
      · rw [Function.update_of_ne same, beq_false_of_ne (Ne.symm same)]
        simp

/-- A node joins the queue if its number passes zero. -/
theorem mem_foldl_relax {events : List α} {node : α} :
    node ∈ (events.foldl relax (degrees, queue)).2 ↔
      node ∈ queue ∨ 1 ≤ degrees node ∧ degrees node ≤ events.count node := by
  induction events generalizing degrees queue with
  | nil =>
      refine (or_iff_left ?_).symm
      rintro ⟨positive, none⟩
      rw [List.count_nil] at none
      omega
  | cons child rest ih =>
      rw [List.foldl_cons, relax_eq, ih, List.count_cons]
      by_cases same : node = child
      · subst same
        rw [Function.update_self, beq_self_eq_true, if_pos rfl]
        split
        · rename_i zero
          have reached : 1 ≤ degrees node ∧ degrees node ≤ (rest.count node + 1 : Nat) := by
            push_cast
            omega
          exact iff_of_true (.inl (List.mem_append_right _ (List.mem_singleton_self _)))
            (.inr reached)
        · rename_i other
          push_cast
          refine or_congr_right ⟨fun _ => by omega, fun _ => by omega⟩
      · rw [Function.update_of_ne same, beq_false_of_ne (Ne.symm same)]
        have joins : node ∈ (if degrees child - 1 = 0 then queue ++ [child] else queue) ↔
            node ∈ queue := by
          split
          · simp [same]
          · rfl
        rw [joins]
        simp

theorem nodup_foldl_relax {events : List α} (nodup : queue.Nodup)
    (reached : ∀ node ∈ queue, degrees node ≤ 0) :
    (events.foldl relax (degrees, queue)).2.Nodup := by
  induction events generalizing degrees queue with
  | nil => exact nodup
  | cons child rest ih =>
      rw [List.foldl_cons, relax_eq]
      refine ih ?_ ?_
      · split
        · rename_i zero
          refine List.nodup_append.mpr ⟨nodup, List.nodup_singleton _, ?_⟩
          rintro node member other isChild rfl
          have low := reached node member
          rw [List.mem_singleton.mp isChild] at low
          omega
        · exact nodup
      · intro node member
        by_cases same : node = child
        · rw [same, Function.update_self]
          split at member
          · omega
          · have low := reached node member
            rw [same] at low
            omega
        · rw [Function.update_of_ne same]
          split at member
          · rcases List.mem_append.mp member with old | new
            · exact reached node old
            · exact absurd (List.mem_singleton.mp new) same
          · exact reached node member

end Relax

/-! ## Children -/

section Children

variable {nodes : List α} {dependencies : α → List α}

theorem count_children (nodup : nodes.Nodup) (node child : α) :
    (children nodes dependencies node).count child =
      if child ∈ nodes then (dependencies child).count node else 0 := by
  unfold children
  induction nodes with
  | nil => simp
  | cons first rest ih =>
      obtain ⟨apart, nodup⟩ := List.nodup_cons.mp nodup
      rw [List.flatMap_cons, List.count_append, ih nodup, List.count_replicate]
      by_cases same : child = first
      · subst same
        simp [apart]
      · simp [same, Ne.symm same]

/-- How often a node is relaxed when a layer is done. -/
theorem count_flatMap_children (nodup : nodes.Nodup) {layer : List α} (layerNodup : layer.Nodup)
    {node : α} (known : node ∈ nodes) :
    (layer.flatMap (children nodes dependencies)).count node =
      (dependencies node).countP (· ∈ layer) := by
  induction layer with
  | nil => simp
  | cons first rest ih =>
      obtain ⟨apart, restNodup⟩ := List.nodup_cons.mp layerNodup
      rw [List.flatMap_cons, List.count_append, ih restNodup, count_children nodup, if_pos known]
      induction dependencies node with
      | nil => rfl
      | cons dependency others inner =>
          rw [List.count_cons, List.countP_cons, List.countP_cons, ← inner]
          by_cases same : dependency = first
          · subst same
            simp [apart]
            omega
          · simp [same]
            omega

theorem mem_nodes_of_mem_children {layer : List α} {child : α}
    (member : child ∈ layer.flatMap (children nodes dependencies)) : child ∈ nodes := by
  obtain ⟨node, _, isChild⟩ := List.mem_flatMap.mp member
  obtain ⟨other, known, same⟩ := List.mem_flatMap.mp isChild
  rw [List.eq_of_mem_replicate same]
  exact known

end Children

/-! ## What the layers are -/

/-- The dependencies of a node that are not done. -/
def openCount (dependencies : α → List α) (done : List α) (node : α) : Nat :=
  (dependencies node).countP (· ∉ done)

/-- A layer that depends only on what is done. -/
structure Layer (nodes : List α) (dependencies : α → List α) (done layer : List α) : Prop where
  nodup : layer.Nodup
  known : ∀ node ∈ layer, node ∈ nodes
  fresh : ∀ node ∈ layer, node ∉ done
  ready : ∀ node ∈ layer, ∀ dependency ∈ dependencies node, dependency ∈ done

/-- Each layer depends on the ones before it only. -/
inductive Layered (nodes : List α) (dependencies : α → List α) :
    List α → List (List α) → Prop where
  | nil (done : List α) : Layered nodes dependencies done []
  | cons {done layer : List α} {rest : List (List α)}
      (isLayer : Layer nodes dependencies done layer)
      (later : Layered nodes dependencies (done ++ layer) rest) :
      Layered nodes dependencies done (layer :: rest)

omit [DecidableEq α] in
theorem Layered.fresh {nodes : List α} {dependencies : α → List α} {done : List α}
    {layers : List (List α)} (layered : Layered nodes dependencies done layers) :
    ∀ node ∈ layers.flatten, node ∈ nodes ∧ node ∉ done := by
  induction layered with
  | nil => exact fun _ member => nomatch member
  | cons isLayer _ ih =>
      intro node member
      rw [List.flatten_cons] at member
      rcases List.mem_append.mp member with first | later
      · exact ⟨isLayer.known node first, isLayer.fresh node first⟩
      · obtain ⟨known, absent⟩ := ih node later
        exact ⟨known, fun old => absent (List.mem_append_left _ old)⟩

/-- What holds before a layer: it has the nodes that are ready and not done. -/
structure Frontier (nodes : List α) (dependencies : α → List α) (done queue : List α)
    (degrees : α → Int) : Prop where
  degree : ∀ node ∈ nodes, degrees node = openCount dependencies done node
  nodup : (done ++ queue).Nodup
  known : ∀ node ∈ done ++ queue, node ∈ nodes
  ready : ∀ node ∈ nodes, node ∈ done ++ queue ↔ openCount dependencies done node = 0

section Frontier

variable {nodes : List α} {dependencies : α → List α} {done queue : List α} {degrees : α → Int}

/-- The dependencies that a layer closes are no longer open. -/
theorem openCount_append (apart : ∀ node ∈ queue, node ∉ done) (node : α) :
    openCount dependencies done node =
      openCount dependencies (done ++ queue) node + (dependencies node).countP (· ∈ queue) := by
  unfold openCount
  induction dependencies node with
  | nil => rfl
  | cons dependency rest ih =>
      simp only [List.countP_cons, ih, List.mem_append, not_or, decide_eq_true_eq]
      by_cases closes : dependency ∈ queue
      · simp [closes, apart dependency closes]
        omega
      · simp [closes]
        omega

theorem openCount_eq_zero_iff {node : α} :
    openCount dependencies done node = 0 ↔
      ∀ dependency ∈ dependencies node, dependency ∈ done := by
  unfold openCount
  rw [List.countP_eq_zero]
  simp

theorem Frontier.step (nodup : nodes.Nodup)
    (frontier : Frontier nodes dependencies done queue degrees) :
    Frontier nodes dependencies (done ++ queue)
      ((queue.flatMap (children nodes dependencies)).foldl relax (degrees, [])).2
      ((queue.flatMap (children nodes dependencies)).foldl relax (degrees, [])).1 := by
  obtain ⟨degree, split, known, ready⟩ := frontier
  have queueNodup : queue.Nodup := (List.nodup_append.mp split).2.1
  have apart : ∀ node ∈ queue, node ∉ done := fun node inQueue inDone =>
    (List.nodup_append.mp split).2.2 node inDone node inQueue rfl
  have count (node : α) (member : node ∈ nodes) :
      (queue.flatMap (children nodes dependencies)).count node =
        (dependencies node).countP (· ∈ queue) := count_flatMap_children nodup queueNodup member
  have opened (node : α) : openCount dependencies done node =
      openCount dependencies (done ++ queue) node + (dependencies node).countP (· ∈ queue) :=
    openCount_append apart node
  have joins (node : α) (member : node ∈ nodes) :
      node ∈ ((queue.flatMap (children nodes dependencies)).foldl relax (degrees, [])).2 ↔
        openCount dependencies done node ≠ 0 ∧
          openCount dependencies (done ++ queue) node = 0 := by
    rw [mem_foldl_relax, count node member, degree node member]
    have sum := opened node
    simp only [List.not_mem_nil, false_or]
    omega
  refine ⟨fun node member => ?_, ?_, ?_, fun node member => ?_⟩
  · rw [foldl_relax_degree, count node member, degree node member]
    have sum := opened node
    omega
  · refine List.nodup_append.mpr ⟨split, nodup_foldl_relax List.nodup_nil ?_, ?_⟩
    · exact fun _ member => nomatch member
    · rintro node old other new rfl
      have member := known node old
      exact ((joins node member).mp new).1 ((ready node member).mp old)
  · intro node member
    rcases List.mem_append.mp member with old | new
    · exact known node old
    · have relaxed := (mem_foldl_relax.mp new).resolve_left List.not_mem_nil
      have occurs : 0 < (queue.flatMap (children nodes dependencies)).count node := by omega
      exact mem_nodes_of_mem_children (List.count_pos_iff.mp occurs)
  · rw [List.mem_append, ready node member, joins node member]
    have sum := opened node
    omega

/-- The layers are in order, and hold every node from which no infinite path starts. -/
theorem Frontier.layered (nodup : nodes.Nodup)
    (closed : ∀ node ∈ nodes, ∀ dependency ∈ dependencies node, dependency ∈ nodes)
    (frontier : Frontier nodes dependencies done queue degrees) {fuel : Nat}
    (enough : nodes.length < fuel + done.length) :
    Layered nodes dependencies done (layersFrom (children nodes dependencies) fuel degrees queue) ∧
      ∀ node ∈ nodes, DepthFirst.Grounded dependencies node →
        node ∈ done ∨
          node ∈ (layersFrom (children nodes dependencies) fuel degrees queue).flatten := by
  induction fuel generalizing done queue degrees with
  | zero =>
      have few : done.length ≤ nodes.length :=
        (List.subperm_of_subset (List.nodup_append.mp frontier.nodup).1 fun node member =>
          frontier.known node (List.mem_append_left _ member)).length_le
      omega
  | succ fuel ih =>
      unfold layersFrom
      by_cases empty : queue = []
      · rw [if_pos empty]
        refine ⟨.nil done, fun node member grounded => .inl ?_⟩
        have ready := frontier.ready
        rw [empty, List.append_nil] at ready
        induction grounded with
        | intro node _ inner =>
            refine (ready node member).mpr (openCount_eq_zero_iff.mpr fun dependency isOne => ?_)
            exact inner dependency isOne (closed node member dependency isOne)
      · rw [if_neg empty]
        have split := List.nodup_append.mp frontier.nodup
        have longer : 0 < queue.length := List.length_pos_iff.mpr empty
        have far : nodes.length < fuel + (done ++ queue).length := by
          rw [List.length_append]
          omega
        obtain ⟨order, cover⟩ := ih (frontier.step nodup) far
        have known (node : α) (inQueue : node ∈ queue) : node ∈ nodes :=
          frontier.known node (List.mem_append_right done inQueue)
        have isLayer : Layer nodes dependencies done queue := by
          refine ⟨split.2.1, known, fun node inQueue inDone => ?_, fun node inQueue => ?_⟩
          · exact split.2.2 node inDone node inQueue rfl
          · exact openCount_eq_zero_iff.mp ((frontier.ready node (known node inQueue)).mp
              (List.mem_append_right done inQueue))
        refine ⟨.cons isLayer order, fun node member grounded => ?_⟩
        · rw [List.flatten_cons]
          rcases cover node member grounded with old | new
          · exact (List.mem_append.mp old).imp_right (List.mem_append_left _)
          · exact .inr (List.mem_append_right _ new)

end Frontier

theorem frontier_start {nodes : List α} {dependencies : α → List α} (nodup : nodes.Nodup) :
    Frontier nodes dependencies []
      (nodes.filter fun node => ((dependencies node).length : Int) = 0)
      (fun node => (dependencies node).length) := by
  have all (node : α) : openCount dependencies [] node = (dependencies node).length :=
    List.countP_eq_length.mpr fun _ _ => by simp
  refine ⟨fun node _ => ?_, nodup.filter _, fun node member => ?_, fun node member => ?_⟩
  · rw [all]
  · exact (List.mem_filter.mp member).1
  · rw [List.nil_append, List.mem_filter, all]
    simp [member]

/-- In a graph without infinite paths the layers hold all nodes, in order. -/
theorem layered_layers {nodes : List α} {dependencies : α → List α} (nodup : nodes.Nodup)
    (closed : ∀ node ∈ nodes, ∀ dependency ∈ dependencies node, dependency ∈ nodes) :
    Layered nodes dependencies [] (layers nodes dependencies) ∧
      ∀ node ∈ nodes, DepthFirst.Grounded dependencies node →
        node ∈ (layers nodes dependencies).flatten := by
  have enough : nodes.length < nodes.length + 1 + ([] : List α).length := Nat.lt_succ_self _
  obtain ⟨order, cover⟩ := (frontier_start nodup).layered nodup closed enough
  exact ⟨order, fun node member grounded =>
    (cover node member grounded).resolve_left List.not_mem_nil⟩

/-! ## The end of the loop -/

/-- The loop of `layersFrom` without a bound on its rounds. -/
inductive Loop (children : α → List α) : (α → Int) → List α → List (List α) → Prop where
  | idle (degrees : α → Int) : Loop children degrees [] []
  | round {degrees : α → Int} {queue : List α} {later : List (List α)} (waits : queue ≠ [])
      (loop : Loop children ((queue.flatMap children).foldl relax (degrees, [])).1
        ((queue.flatMap children).foldl relax (degrees, [])).2 later) :
      Loop children degrees queue (queue :: later)

/-- A node comes only later than a layer for which one of its dependencies was not done. -/
inductive Eager (dependencies : α → List α) : List α → List (List α) → Prop where
  | nil (done : List α) : Eager dependencies done []
  | cons {done layer : List α} {rest : List (List α)}
      (waits : ∀ node ∈ rest.flatten, ∃ dependency ∈ dependencies node, dependency ∉ done)
      (later : Eager dependencies (done ++ layer) rest) :
      Eager dependencies done (layer :: rest)

section Rounds

variable {nodes : List α} {dependencies : α → List α} {done queue : List α} {degrees : α → Int}

/-- Each round does a node that was not done. -/
theorem Frontier.loop (nodup : nodes.Nodup)
    (frontier : Frontier nodes dependencies done queue degrees) {fuel : Nat}
    (enough : nodes.length < fuel + done.length) :
    Loop (children nodes dependencies) degrees queue
      (layersFrom (children nodes dependencies) fuel degrees queue) := by
  induction fuel generalizing done queue degrees with
  | zero =>
      have few : done.length ≤ nodes.length :=
        (List.subperm_of_subset (List.nodup_append.mp frontier.nodup).1 fun node member =>
          frontier.known node (List.mem_append_left _ member)).length_le
      omega
  | succ fuel ih =>
      unfold layersFrom
      by_cases empty : queue = []
      · rw [if_pos empty, empty]
        exact .idle degrees
      · rw [if_neg empty]
        have longer : 0 < queue.length := List.length_pos_iff.mpr empty
        have far : nodes.length < fuel + (done ++ queue).length := by
          rw [List.length_append]
          omega
        exact .round empty (ih (frontier.step nodup) far)

/-- A node that joins a later layer was not ready for this one. -/
theorem Frontier.eager (nodup : nodes.Nodup)
    (frontier : Frontier nodes dependencies done queue degrees) (fuel : Nat) :
    Eager dependencies done (layersFrom (children nodes dependencies) fuel degrees queue) ∧
      ∀ node ∈ (layersFrom (children nodes dependencies) fuel degrees queue).flatten,
        node ∈ nodes ∧ node ∉ done := by
  induction fuel generalizing done queue degrees with
  | zero => exact ⟨.nil done, fun _ member => nomatch member⟩
  | succ fuel ih =>
      unfold layersFrom
      by_cases empty : queue = []
      · rw [if_pos empty]
        exact ⟨.nil done, fun _ member => nomatch member⟩
      · rw [if_neg empty]
        obtain ⟨later, fresh⟩ := ih (frontier.step nodup)
        refine ⟨.cons (fun node member => ?_) later, fun node member => ?_⟩
        · obtain ⟨known, absent⟩ := fresh node member
          have waits := mt (frontier.ready node known).mpr absent
          rw [openCount_eq_zero_iff] at waits
          push Not at waits
          exact waits
        · rw [List.flatten_cons] at member
          rcases List.mem_append.mp member with first | other
          · refine ⟨frontier.known node (List.mem_append_right done first), fun old => ?_⟩
            exact (List.nodup_append.mp frontier.nodup).2.2 node old node first rfl
          · obtain ⟨known, absent⟩ := fresh node other
            exact ⟨known, fun old => absent (List.mem_append_left _ old)⟩

end Rounds

/-- The loop ends after at most one round for each node. -/
theorem loop_layers {nodes : List α} (dependencies : α → List α) (nodup : nodes.Nodup) :
    Loop (children nodes dependencies) (fun node => (dependencies node).length)
      (nodes.filter fun node => ((dependencies node).length : Int) = 0)
      (layers nodes dependencies) :=
  (frontier_start nodup).loop nodup (Nat.lt_succ_self nodes.length)

theorem eager_layers {nodes : List α} (dependencies : α → List α) (nodup : nodes.Nodup) :
    Eager dependencies [] (layers nodes dependencies) :=
  ((frontier_start nodup).eager nodup _).1

/-! ## The number of a layer -/

/-- The node is in the layer of the number. -/
def InLayer (layers : List (List α)) (index : Nat) (node : α) : Prop :=
  ∃ layer, layers[index]? = some layer ∧ node ∈ layer

/-- A path along the dependencies that leads to the node. -/
def ChainTo (dependencies : α → List α) (node : α) (chain : List α) : Prop :=
  (chain ++ [node]).IsChain fun earlier later => earlier ∈ dependencies later

section Index

omit [DecidableEq α]

variable {nodes : List α} {dependencies : α → List α} {done : List α} {layers : List (List α)}
  {node : α}

theorem inLayer_zero {layer : List α} : InLayer (layer :: layers) 0 node ↔ node ∈ layer := by
  simp [InLayer]

theorem inLayer_succ {layer : List α} {index : Nat} :
    InLayer (layer :: layers) (index + 1) node ↔ InLayer layers index node := by
  simp [InLayer]

theorem InLayer.mem_flatten {index : Nat} (inLayer : InLayer layers index node) :
    node ∈ layers.flatten := by
  obtain ⟨layer, isLayer, member⟩ := inLayer
  exact List.mem_flatten.mpr ⟨layer, List.mem_of_getElem? isLayer, member⟩

theorem Layered.nodup_flatten (layered : Layered nodes dependencies done layers) :
    layers.flatten.Nodup := by
  induction layered with
  | nil => exact List.nodup_nil
  | cons isLayer later ih =>
      rw [List.flatten_cons]
      refine List.nodup_append.mpr ⟨isLayer.nodup, ih, ?_⟩
      rintro node first other inLater rfl
      exact (later.fresh node inLater).2 (List.mem_append_right _ first)

/-- What a node depends on is done before, or in an earlier layer. -/
theorem Layered.earlier (layered : Layered nodes dependencies done layers) {index : Nat}
    (inLayer : InLayer layers index node) :
    ∀ dependency ∈ dependencies node,
      dependency ∈ done ∨ ∃ earlier < index, InLayer layers earlier dependency := by
  induction layered generalizing index with
  | nil =>
      obtain ⟨layer, isLayer, _⟩ := inLayer
      cases isLayer
  | cons isLayer later ih =>
      intro dependency isOne
      cases index with
      | zero => exact .inl (isLayer.ready node (inLayer_zero.mp inLayer) dependency isOne)
      | succ index =>
          rcases ih (inLayer_succ.mp inLayer) dependency isOne with old | ⟨earlier, less, found⟩
          · rcases List.mem_append.mp old with before | first
            · exact .inl before
            · exact .inr ⟨0, Nat.succ_pos index, inLayer_zero.mpr first⟩
          · exact .inr ⟨earlier + 1, Nat.succ_lt_succ less, inLayer_succ.mpr found⟩

/-- A node of a later layer depends on a node of the layer before its own. -/
theorem Eager.before (eager : Eager dependencies done layers)
    (layered : Layered nodes dependencies done layers) {index : Nat}
    (inLayer : InLayer layers (index + 1) node) :
    ∃ dependency ∈ dependencies node, InLayer layers index dependency := by
  induction eager generalizing index with
  | nil =>
      obtain ⟨layer, isLayer, _⟩ := inLayer
      cases isLayer
  | @cons done layer rest waits later ih =>
      cases layered with
      | cons isLayer laterLayered =>
          have inRest := inLayer_succ.mp inLayer
          cases index with
          | zero =>
              obtain ⟨dependency, isOne, fresh⟩ := waits node inRest.mem_flatten
              refine ⟨dependency, isOne, inLayer_zero.mpr ?_⟩
              rcases laterLayered.earlier inRest dependency isOne with old | ⟨_, less, _⟩
              · exact (List.mem_append.mp old).resolve_left fresh
              · exact absurd less (Nat.not_lt_zero _)
          | succ index =>
              obtain ⟨dependency, isOne, found⟩ := ih laterLayered inRest
              exact ⟨dependency, isOne, inLayer_succ.mpr found⟩

theorem chainTo_concat_iff {chain : List α} {last : α} :
    ChainTo dependencies node (chain ++ [last]) ↔
      ChainTo dependencies last chain ∧ last ∈ dependencies node := by
  unfold ChainTo
  rw [List.isChain_append]
  simp

/-- Every chain has its nodes in layers one after another. -/
theorem Layered.length_le (layered : Layered nodes dependencies [] layers) {index : Nat}
    (inLayer : InLayer layers index node) {chain : List α}
    (isChain : ChainTo dependencies node chain) : chain.length ≤ index := by
  induction chain using List.reverseRecOn generalizing node index with
  | nil => exact Nat.zero_le index
  | append_singleton chain last ih =>
      obtain ⟨before, isOne⟩ := chainTo_concat_iff.mp isChain
      rcases layered.earlier inLayer last isOne with old | ⟨earlier, less, found⟩
      · cases old
      · have bound := ih found before
        rw [List.length_append, List.length_singleton]
        omega

theorem Eager.exists_chain (eager : Eager dependencies [] layers)
    (layered : Layered nodes dependencies [] layers) {index : Nat}
    (inLayer : InLayer layers index node) :
    ∃ chain, ChainTo dependencies node chain ∧ chain.length = index := by
  induction index generalizing node with
  | zero => exact ⟨[], List.isChain_singleton node, rfl⟩
  | succ index ih =>
      obtain ⟨dependency, isOne, found⟩ := eager.before layered inLayer
      obtain ⟨chain, isChain, length⟩ := ih found
      refine ⟨chain ++ [dependency], chainTo_concat_iff.mpr ⟨isChain, isOne⟩, ?_⟩
      rw [List.length_append, length, List.length_singleton]

/-- The number of a layer is the length of the longest chain to any of its nodes. -/
theorem isGreatest_index (layered : Layered nodes dependencies [] layers)
    (eager : Eager dependencies [] layers) {index : Nat} (inLayer : InLayer layers index node) :
    IsGreatest {length | ∃ chain, ChainTo dependencies node chain ∧ chain.length = length}
      index := by
  refine ⟨eager.exists_chain layered inLayer, ?_⟩
  rintro length ⟨chain, isChain, rfl⟩
  exact layered.length_le inLayer isChain

end Index

end YouMi.Library.Layers

import YouMi.Mcp.SearchNewTools

/-!
# Search with confirmation

`search_and_confirm` shows a confirmer what a search finds, one tool after another, and loads
the first that is accepted and passes the gate.  When a round has found nothing to the
confirmer's liking, the next one leaves out what was rejected.
-/

namespace YouMi.Mcp

open YouMi.Core YouMi.Library YouMi.Mcp.ToolStore

structure ConfirmRequest where
  query : String
  maxRetries : Int := 3
  topK : Int := 5
  minScore : Rat := 3 / 10
  /-- Whether an accepted tool is loaded at once. -/
  activate : Bool := true

/-- What a session meets outside, but for the answers. -/
structure ConfirmEnv (V : Type) where
  /-- In each round. -/
  retrieving : Nat → RetrievalEnv V
  /-- The identifier drawn for a record of approval. -/
  freshId : String

/-- What the confirmer answers in the order of its calls; nothing where it raises. -/
abbrev Answers := Nat → Option Bool

structure Offer where
  candidate : ToolStore.ToolSearchResult
  confirmed : Bool

structure ConfirmSession (V : Type) where
  searcher : ToolSearcher V
  /-- What the confirmer was shown so far. -/
  offers : List Offer := []

/-- How a session ends. -/
inductive ConfirmEnd where
  | noVault
  | nothingFound
  | exhausted
  | pendingApproval (candidate : ToolStore.ToolSearchResult) (recordId : String)
  | confirmed (candidate : ToolStore.ToolSearchResult)
  | activated (candidate : ToolStore.ToolSearchResult) (promoted : Bool)

structure ConfirmOutcome (V : Type) where
  ending : ConfirmEnd
  session : ConfirmSession V
  /-- The number of retrievals. -/
  rounds : Nat

variable {V : Type}

namespace ConfirmSession

def reject (toolName : String) (session : ConfirmSession V) : ConfirmSession V :=
  { session with searcher := session.searcher.rejectAll [toolName] }

/-- What was rejected is forgotten. -/
def forget (session : ConfirmSession V) : ConfirmSession V :=
  { session with
    searcher := { session.searcher with
      bridge := { session.searcher.bridge with rejectedTools := [] } } }

/-- An accepted tool that nothing holds back is loaded, or left to the caller. -/
def take (request : ConfirmRequest) (session : ConfirmSession V)
    (candidate : ToolStore.ToolSearchResult) : ConfirmEnd × ConfirmSession V :=
  if request.activate then
    let searcher := session.searcher
    let (promoted, bridge, vault) :=
      searcher.bridge.activateTool searcher.toolVault candidate.toolName
    let vaultAfter := searcher.vault.map fun old =>
      { old with toToolVault := vault.getD old.toToolVault }
    (.activated candidate promoted,
      { session with searcher := { searcher with bridge, vault := vaultAfter } })
  else (.confirmed candidate, session.forget)

/-- The gate is asked about the candidate as it was found. -/
def accept (env : ConfirmEnv V) (request : ConfirmRequest) (session : ConfirmSession V)
    (candidate : ToolStore.ToolSearchResult) : Option ConfirmEnd × ConfirmSession V :=
  match session.searcher.gate with
  | none =>
      let (ending, session) := session.take request candidate
      (some ending, session)
  | some gate =>
      let bridge := session.searcher.bridge
      let (audit, gate) :=
        gate.check env.freshId (asCandidate candidate) bridge.agentId bridge.allowedTools
      let session := { session with searcher := { session.searcher with gate := some gate } }
      match audit.decision with
      | .block => (none, session.reject candidate.toolName)
      | .manual => (some (.pendingApproval candidate audit.recordId), session.forget)
      | .pass =>
          let (ending, session) := session.take request candidate
          (some ending, session)

/-- One candidate is shown to the confirmer; nothing where the session goes on. -/
def offer (env : ConfirmEnv V) (answers : Answers) (request : ConfirmRequest)
    (session : ConfirmSession V) (candidate : ToolStore.ToolSearchResult) :
    Option ConfirmEnd × ConfirmSession V :=
  -- A confirmer that raises rejects.
  let confirmed := (answers session.offers.length).getD false
  let session := { session with offers := session.offers ++ [Offer.mk candidate confirmed] }
  if confirmed then session.accept env request candidate
  else (none, session.reject candidate.toolName)

/-- The candidates of a round, until the session ends. -/
def offerEach (env : ConfirmEnv V) (answers : Answers) (request : ConfirmRequest) :
    List ToolStore.ToolSearchResult → ConfirmSession V → Option ConfirmEnd × ConfirmSession V
  | [], session => (none, session)
  | candidate :: rest, session =>
      match session.offer env answers request candidate with
      | (some ending, session) => (some ending, session)
      | (none, session) => offerEach env answers request rest session

end ConfirmSession

/-- What a round finds. -/
def ToolSearcher.retrieve (env : ConfirmEnv V) (request : ConfirmRequest) (round : Nat)
    (searcher : ToolSearcher V) : List ToolStore.ToolSearchResult :=
  match searcher.getCone with
  | none => []
  | some cone =>
      cone.retrieve (env.retrieving round)
        (searcher.coneQuery request.query request.topK request.minScore)

/-- `count` rounds at most, numbered from `round` on. -/
def confirmRounds (env : ConfirmEnv V) (answers : Answers) (request : ConfirmRequest) :
    (count round : Nat) → ConfirmSession V → ConfirmOutcome V
  | 0, round, session => ⟨.exhausted, session, round⟩
  | count + 1, round, session =>
      match session.searcher.retrieve env request round with
      | [] => ⟨.nothingFound, session, round + 1⟩
      | candidate :: rest =>
          match session.offerEach env answers request (candidate :: rest) with
          | (some ending, session) => ⟨ending, session, round + 1⟩
          | (none, session) => confirmRounds env answers request count (round + 1) session

def ConfirmRequest.rounds (request : ConfirmRequest) : Nat := max 1 request.maxRetries.toNat

def ToolSearcher.searchAndConfirm (env : ConfirmEnv V) (answers : Answers)
    (request : ConfirmRequest) (searcher : ToolSearcher V) : ConfirmOutcome V :=
  match searcher.vault with
  | none => ⟨.noVault, { searcher }, 0⟩
  | some _ => confirmRounds env answers request request.rounds 0 { searcher }

/-! ## Rejections -/

namespace ToolSearcher

theorem rejectAll_eq (names : List String) (searcher : ToolSearcher V) :
    searcher.rejectAll names =
      { searcher with
        bridge := { searcher.bridge with
          rejectedTools := names.foldl (fun rejected name => rejected.insert name)
            searcher.bridge.rejectedTools } } := by
  unfold rejectAll
  induction names generalizing searcher with
  | nil => rfl
  | cons name rest ih =>
      exact ih { searcher with bridge := searcher.bridge.rejectSearchResult name }

theorem rejectAll_append (first second : List String) (searcher : ToolSearcher V) :
    searcher.rejectAll (first ++ second) = (searcher.rejectAll first).rejectAll second := by
  unfold rejectAll
  rw [List.foldl_append]

/-- A rejected tool is excluded, and no other is besides. -/
theorem mem_excluded_rejectAll {names : List String} {searcher : ToolSearcher V} {name : String} :
    name ∈ (searcher.rejectAll names).excluded ↔ name ∈ names ∨ name ∈ searcher.excluded := by
  have inserted (rejected : List String) :
      name ∈ names.foldl (fun rejected name => rejected.insert name) rejected ↔
        name ∈ names ∨ name ∈ rejected := by
    induction names generalizing rejected with
    | nil => simp
    | cons head rest ih =>
        rw [List.foldl_cons, ih, List.mem_insert_iff, List.mem_cons]
        tauto
  rw [rejectAll_eq]
  change name ∈ searcher.visibleToolNames ++ _ ↔ _ ∨ name ∈ searcher.visibleToolNames ++ _
  rw [List.mem_append, List.mem_append, inserted]
  tauto

/-- The gate lets the tool pass as it is described. -/
def Passes (searcher : ToolSearcher V) (candidate : ToolSearchResult) : Prop :=
  gateDecision searcher.gate candidate searcher.bridge.allowedTools = .pass

theorem passes_rejectAll {names : List String} {searcher : ToolSearcher V}
    {candidate : ToolSearchResult} :
    (searcher.rejectAll names).Passes candidate ↔ searcher.Passes candidate := by
  rw [rejectAll_eq]
  exact Iff.rfl

/-- Nothing has been loaded between the two. -/
structure SameTools (before after : ToolSearcher V) : Prop where
  vault : after.vault = before.vault
  allowedTools : after.bridge.allowedTools = before.bridge.allowedTools
  context : after.bridge.context = before.bridge.context
  activeLineages : after.bridge.activeLineages = before.bridge.activeLineages

theorem SameTools.trans {first second third : ToolSearcher V} (earlier : SameTools first second)
    (later : SameTools second third) : SameTools first third :=
  ⟨later.vault.trans earlier.vault, later.allowedTools.trans earlier.allowedTools,
    later.context.trans earlier.context, later.activeLineages.trans earlier.activeLineages⟩

theorem sameTools_rejectAll (names : List String) (searcher : ToolSearcher V) :
    SameTools searcher (searcher.rejectAll names) := by
  rw [rejectAll_eq]
  exact ⟨rfl, rfl, rfl, rfl⟩

end ToolSearcher

/-- A gate that blocks a tool is as it was. -/
theorem AuditGate.check_of_block {gate : AuditGate} {freshId agentId : String}
    {candidate : ToolSearchResult} {granted : Option (List String)}
    (blocked : (gate.check freshId candidate agentId granted).1.decision = .block) :
    (gate.check freshId candidate agentId granted).2 = gate := by
  unfold AuditGate.check at blocked ⊢
  dsimp only at blocked ⊢
  split
  · rfl
  · rename_i granted
    rw [if_neg granted] at blocked
    split
    · rename_i above
      rw [if_pos above] at blocked
      cases found : gate.approvalManager with
      | none => rfl
      | some manager =>
          rw [found] at blocked
          cases blocked
    · rfl

/-! ## One offer -/

namespace ConfirmSession

variable {env : ConfirmEnv V} {answers : Answers} {request : ConfirmRequest}
  {session : ConfirmSession V} {candidate : ToolStore.ToolSearchResult}

/-- The session with the answer noted. -/
def note (session : ConfirmSession V) (candidate : ToolStore.ToolSearchResult)
    (confirmed : Bool) : ConfirmSession V :=
  { session with offers := session.offers ++ [⟨candidate, confirmed⟩] }

/-- What is loaded at the end is the candidate, and passes the gate as it was found. -/
def Accepted (request : ConfirmRequest) (searcher : ToolSearcher V)
    (candidate : ToolStore.ToolSearchResult) (ending : ConfirmEnd) : Prop :=
  ∀ found promoted, ending = .activated found promoted →
    found = candidate ∧ request.activate = true ∧ searcher.Passes (asCandidate candidate)

/-- No tool is loaded at the end. -/
def NotLoaded (ending : ConfirmEnd) : Prop :=
  ∀ found promoted, ending ≠ .activated found promoted

/-- What an offer leads to: the session goes on without the tool, or ends with it accepted. -/
inductive Offered (request : ConfirmRequest) (session : ConfirmSession V)
    (candidate : ToolStore.ToolSearchResult) (confirmed : Bool) :
    Option ConfirmEnd × ConfirmSession V → Prop where
  | passedOver :
      Offered request session candidate confirmed
        (none, (session.note candidate confirmed).reject candidate.toolName)
  | ended (ending : ConfirmEnd) (after : ConfirmSession V) (accepts : confirmed = true)
      (offers : after.offers = (session.note candidate confirmed).offers)
      (accepted : Accepted request session.searcher candidate ending)
      (same : NotLoaded ending → ToolSearcher.SameTools session.searcher after.searcher) :
      Offered request session candidate confirmed (some ending, after)

theorem offers_take (request : ConfirmRequest) (session : ConfirmSession V)
    (candidate : ToolStore.ToolSearchResult) :
    (session.take request candidate).2.offers = session.offers := by
  unfold take
  split <;> rfl

theorem accepted_take {searcher : ToolSearcher V} (passes : searcher.Passes (asCandidate candidate))
    (session : ConfirmSession V) :
    Accepted request searcher candidate (session.take request candidate).1 := by
  intro found promoted isEnd
  unfold take at isEnd
  split at isEnd
  · rename_i activates
    cases isEnd
    exact ⟨rfl, activates, passes⟩
  · cases isEnd

theorem sameTools_take (request : ConfirmRequest) (session : ConfirmSession V)
    (candidate : ToolStore.ToolSearchResult)
    (notLoaded : NotLoaded (session.take request candidate).1) :
    ToolSearcher.SameTools session.searcher (session.take request candidate).2.searcher := by
  unfold take at notLoaded ⊢
  split
  · rename_i activates
    rw [if_pos activates] at notLoaded
    exact absurd rfl (notLoaded _ _)
  · exact ⟨rfl, rfl, rfl, rfl⟩

theorem offered_accept (env : ConfirmEnv V) (request : ConfirmRequest) (session : ConfirmSession V)
    (candidate : ToolStore.ToolSearchResult) :
    Offered request session candidate true
      ((session.note candidate true).accept env request candidate) := by
  unfold accept
  cases isGate : (session.note candidate true).searcher.gate with
  | none =>
      have passes : session.searcher.Passes (asCandidate candidate) := by
        unfold ToolSearcher.Passes
        rw [show session.searcher.gate = none from isGate]
        rfl
      exact .ended _ _ rfl (offers_take ..) (accepted_take passes _)
        (sameTools_take request (session.note candidate true) candidate)
  | some gate =>
      have given : session.searcher.gate = some gate := isGate
      let bridge := (session.note candidate true).searcher.bridge
      have decides := gate.check_decision env.freshId bridge.agentId (asCandidate candidate)
        bridge.allowedTools
      dsimp only
      cases decision : (gate.check env.freshId (asCandidate candidate) bridge.agentId
        bridge.allowedTools).1.decision with
      | block =>
          have same : (gate.check env.freshId (asCandidate candidate) bridge.agentId
            bridge.allowedTools).2 = gate := AuditGate.check_of_block decision
          rw [same, ← isGate]
          exact .passedOver
      | manual =>
          refine .ended _ _ rfl rfl ?_ fun _ => ⟨rfl, rfl, rfl, rfl⟩
          intro found promoted isEnd
          cases isEnd
      | pass =>
          have passes : session.searcher.Passes (asCandidate candidate) := by
            unfold ToolSearcher.Passes gateDecision
            rw [given]
            exact decides.symm.trans decision
          refine .ended _ _ rfl (offers_take ..) (accepted_take passes _) fun notLoaded => ?_
          have kept := sameTools_take request _ candidate notLoaded
          exact ⟨kept.vault, kept.allowedTools, kept.context, kept.activeLineages⟩

theorem offered_offer (env : ConfirmEnv V) (answers : Answers) (request : ConfirmRequest)
    (session : ConfirmSession V) (candidate : ToolStore.ToolSearchResult) :
    Offered request session candidate ((answers session.offers.length).getD false)
      (session.offer env answers request candidate) := by
  unfold offer
  dsimp only
  cases (answers session.offers.length).getD false with
  | false => exact .passedOver
  | true => exact offered_accept env request session candidate

theorem offer_of_refused (refused : (answers session.offers.length).getD false = false) :
    session.offer env answers request candidate =
      (none, (session.note candidate false).reject candidate.toolName) := by
  have offered := offered_offer env answers request session candidate
  rw [refused] at offered
  generalize session.offer env answers request candidate = outcome at offered ⊢
  cases offered with
  | passedOver => rfl
  | ended _ _ accepts => cases accepts

/-- A tool that is accepted and passes the gate as it was found is loaded. -/
theorem offer_of_passes (env : ConfirmEnv V) (accepts : (answers session.offers.length).getD false = true)
    (activate : request.activate = true)
    (passes : session.searcher.Passes (asCandidate candidate)) :
    ∃ promoted after, session.offer env answers request candidate =
      (some (.activated candidate promoted), after) := by
  unfold ToolSearcher.Passes gateDecision at passes
  have loaded (noted : ConfirmSession V) :
      ∃ promoted, (noted.take request candidate).1 = .activated candidate promoted := by
    unfold take
    rw [if_pos activate]
    exact ⟨_, rfl⟩
  unfold offer
  dsimp only
  rw [accepts, if_pos rfl]
  unfold accept
  dsimp only
  cases isGate : session.searcher.gate with
  | none =>
      obtain ⟨promoted, isLoaded⟩ := loaded _
      exact ⟨promoted, _, Prod.ext (congrArg some isLoaded) rfl⟩
  | some gate =>
      rw [isGate] at passes
      have decision := (gate.check_decision env.freshId session.searcher.bridge.agentId
        (asCandidate candidate) session.searcher.bridge.allowedTools).trans passes
      dsimp only
      rw [decision]
      obtain ⟨promoted, isLoaded⟩ := loaded _
      exact ⟨promoted, _, Prod.ext (congrArg some isLoaded) rfl⟩

/-! ## Offers in turn -/

theorem offerEach_cons (candidate : ToolStore.ToolSearchResult)
    (rest : List ToolStore.ToolSearchResult) (session : ConfirmSession V) :
    session.offerEach env answers request (candidate :: rest) =
      match session.offer env answers request candidate with
      | (some ending, session) => (some ending, session)
      | (none, session) => session.offerEach env answers request rest := rfl

theorem offerEach_append (first second : List ToolStore.ToolSearchResult)
    (session : ConfirmSession V) :
    session.offerEach env answers request (first ++ second) =
      match session.offerEach env answers request first with
      | (some ending, session) => (some ending, session)
      | (none, session) => session.offerEach env answers request second := by
  induction first generalizing session with
  | nil => rfl
  | cons candidate rest ih =>
      rw [List.cons_append, offerEach_cons, offerEach_cons]
      rcases session.offer env answers request candidate with ⟨_ | ending, after⟩
      · exact ih after
      · rfl

/-- A session that goes on has rejected all that was offered. -/
theorem searcher_offerEach {found : List ToolStore.ToolSearchResult} {after : ConfirmSession V}
    (goesOn : session.offerEach env answers request found = (none, after)) :
    after.searcher =
      session.searcher.rejectAll (found.map ToolStore.ToolSearchResult.toolName) := by
  induction found generalizing session with
  | nil =>
      cases goesOn
      rfl
  | cons candidate rest ih =>
      have offered := offered_offer env answers request session candidate
      rw [offerEach_cons] at goesOn
      generalize session.offer env answers request candidate = outcome at offered goesOn
      cases offered with
      | passedOver =>
          rw [ih goesOn, List.map_cons]
          exact (ToolSearcher.rejectAll_append [candidate.toolName] _ session.searcher).symm
      | ended => cases goesOn

/-- The candidates that are offered come first among those that are found. -/
theorem offers_offerEach (found : List ToolStore.ToolSearchResult) (session : ConfirmSession V) :
    ∃ shown, shown <+: found ∧
      (session.offerEach env answers request found).2.offers.map Offer.candidate =
        session.offers.map Offer.candidate ++ shown := by
  induction found generalizing session with
  | nil => exact ⟨[], List.prefix_rfl, (List.append_nil _).symm⟩
  | cons candidate rest ih =>
      have offered := offered_offer env answers request session candidate
      rw [offerEach_cons]
      generalize session.offer env answers request candidate = outcome at offered ⊢
      cases offered with
      | passedOver =>
          obtain ⟨shown, isPrefix, offers⟩ := ih
            ((session.note candidate ((answers session.offers.length).getD false)).reject
              candidate.toolName)
          refine ⟨candidate :: shown, (List.prefix_cons_inj candidate).mpr isPrefix, ?_⟩
          dsimp only
          rw [offers]
          simp [note, reject]
      | ended ending after accepts offers =>
          refine ⟨[candidate], (List.prefix_cons_inj candidate).mpr (List.nil_prefix), ?_⟩
          dsimp only
          rw [offers]
          simp [note]

/-- What is loaded was found and accepted, and passes the gate as it was found. -/
theorem accepted_offerEach {found : List ToolStore.ToolSearchResult} {promoted : Bool}
    {after : ConfirmSession V}
    (ends : session.offerEach env answers request found =
      (some (.activated candidate promoted), after)) :
    candidate ∈ found ∧ ⟨candidate, true⟩ ∈ after.offers ∧ request.activate = true ∧
      session.searcher.Passes (asCandidate candidate) := by
  induction found generalizing session with
  | nil => cases ends
  | cons head rest ih =>
      have offered := offered_offer env answers request session head
      rw [offerEach_cons] at ends
      generalize session.offer env answers request head = outcome at offered ends
      cases offered with
      | passedOver =>
          obtain ⟨member, shown, activate, passes⟩ := ih ends
          exact ⟨List.mem_cons_of_mem _ member, shown, activate,
            ToolSearcher.passes_rejectAll.mp passes⟩
      | ended ending last accepts offers accepted =>
          cases ends
          obtain ⟨rfl, activate, passes⟩ := accepted candidate promoted rfl
          refine ⟨List.mem_cons_self, ?_, activate, passes⟩
          rw [offers, accepts]
          exact List.mem_append_right _ (List.mem_singleton_self _)

theorem sameTools_offerEach (found : List ToolStore.ToolSearchResult) (session : ConfirmSession V)
    (notLoaded : ∀ ending, (session.offerEach env answers request found).1 = some ending →
      NotLoaded ending) :
    ToolSearcher.SameTools session.searcher
      (session.offerEach env answers request found).2.searcher := by
  induction found generalizing session with
  | nil => exact ⟨rfl, rfl, rfl, rfl⟩
  | cons candidate rest ih =>
      have offered := offered_offer env answers request session candidate
      rw [offerEach_cons] at notLoaded ⊢
      generalize session.offer env answers request candidate = outcome at offered notLoaded ⊢
      cases offered with
      | passedOver =>
          have rejected := ToolSearcher.sameTools_rejectAll [candidate.toolName] session.searcher
          exact rejected.trans (ih _ notLoaded)
      | ended ending after accepts offers accepted same => exact same (notLoaded ending rfl)

/-- A confirmer that rejects all is shown all. -/
theorem offerEach_of_refused (env : ConfirmEnv V) (answers : Answers) (request : ConfirmRequest)
    (session : ConfirmSession V) (found : List ToolStore.ToolSearchResult)
    (refused : ∀ index, index < found.length →
      (answers (session.offers.length + index)).getD false = false) :
    ∃ after, session.offerEach env answers request found = (none, after) ∧
      after.offers = session.offers ++ found.map fun candidate => ⟨candidate, false⟩ := by
  induction found generalizing session with
  | nil => exact ⟨session, rfl, (List.append_nil _).symm⟩
  | cons candidate rest ih =>
      have first : (answers session.offers.length).getD false = false :=
        refused 0 (Nat.succ_pos _)
      rw [offerEach_cons, offer_of_refused first]
      obtain ⟨after, goesOn, offers⟩ :=
        ih ((session.note candidate false).reject candidate.toolName) (by
          intro index inside
          have next := refused (index + 1) (Nat.succ_lt_succ inside)
          have length : ((session.note candidate false).reject candidate.toolName).offers.length +
              index = session.offers.length + (index + 1) := by
            simp [note, reject]
            omega
          rw [length]
          exact next)
      refine ⟨after, goesOn, offers.trans ?_⟩
      simp [note, reject]

end ConfirmSession

/-! ## Rounds -/

/-- What the rounds of a session find, each without what the earlier ones have found. -/
def ToolSearcher.roundsOf (env : ConfirmEnv V) (request : ConfirmRequest) :
    (count round : Nat) → ToolSearcher V → List (List ToolStore.ToolSearchResult)
  | 0, _, _ => []
  | count + 1, round, searcher =>
      match searcher.retrieve env request round with
      | [] => []
      | candidate :: rest =>
          (candidate :: rest) :: roundsOf env request count (round + 1)
            (searcher.rejectAll ((candidate :: rest).map ToolStore.ToolSearchResult.toolName))

section Rounds

variable {env : ConfirmEnv V} {answers : Answers} {request : ConfirmRequest}
  {searcher : ToolSearcher V} {found : ToolStore.ToolSearchResult} {count round : Nat}

theorem not_mem_excluded_of_mem_retrieve (member : found ∈ searcher.retrieve env request round) :
    found.toolName ∉ searcher.excluded := by
  unfold ToolSearcher.retrieve at member
  split at member
  · exact absurd member List.not_mem_nil
  · exact (ConeRetriever.within_of_mem_retrieve member).1.named

theorem not_mem_excluded_of_mem_roundsOf
    (member : found ∈ (searcher.roundsOf env request count round).flatten) :
    found.toolName ∉ searcher.excluded := by
  induction count generalizing round searcher with
  | zero => exact absurd member List.not_mem_nil
  | succ count ih =>
      unfold ToolSearcher.roundsOf at member
      split at member
      · exact absurd member List.not_mem_nil
      · rename_i candidate rest retrieved
        rcases List.mem_append.mp (List.flatten_cons ▸ member) with first | later
        · exact not_mem_excluded_of_mem_retrieve (retrieved ▸ first)
        · exact fun excluded => ih later (ToolSearcher.mem_excluded_rejectAll.mpr (.inr excluded))

/-- Rounds have no tool in common. -/
theorem nodup_roundsOf (apart : ∀ results ∈ searcher.roundsOf env request count round,
      (results.map ToolStore.ToolSearchResult.toolName).Nodup) :
    ((searcher.roundsOf env request count round).flatten.map
      ToolStore.ToolSearchResult.toolName).Nodup := by
  induction count generalizing round searcher with
  | zero => exact List.nodup_nil
  | succ count ih =>
      unfold ToolSearcher.roundsOf at apart ⊢
      split
      · exact List.nodup_nil
      · rename_i candidate rest retrieved
        rw [retrieved] at apart
        rw [List.flatten_cons, List.map_append, List.nodup_append]
        refine ⟨apart _ List.mem_cons_self, ih fun results member =>
          apart results (List.mem_cons_of_mem _ member), ?_⟩
        intro name first other later same
        obtain ⟨again, isAgain, rfl⟩ := List.mem_map.mp later
        refine not_mem_excluded_of_mem_roundsOf isAgain (ToolSearcher.mem_excluded_rejectAll.mpr ?_)
        exact .inl (same ▸ first)

theorem rounds_confirmRounds_le (env : ConfirmEnv V) (answers : Answers)
    (request : ConfirmRequest) (count round : Nat) (session : ConfirmSession V) :
    (confirmRounds env answers request count round session).rounds ≤ round + count := by
  induction count generalizing round session with
  | zero => exact le_refl _
  | succ count ih =>
      unfold confirmRounds
      split
      · dsimp only
        omega
      · split
        · dsimp only
          omega
        · refine le_trans (ih (round + 1) _) ?_
          omega

/-- A session offers what its rounds find, in turn, as if all were found at once. -/
theorem confirmRounds_eq (session : ConfirmSession V) :
    (confirmRounds env answers request count round session).session =
        (session.offerEach env answers request
          (session.searcher.roundsOf env request count round).flatten).2 ∧
      ∃ last, ConfirmSession.NotLoaded last ∧
        (confirmRounds env answers request count round session).ending =
          (session.offerEach env answers request
            (session.searcher.roundsOf env request count round).flatten).1.getD last := by
  induction count generalizing round session with
  | zero => exact ⟨rfl, .exhausted, nofun, rfl⟩
  | succ count ih =>
      unfold confirmRounds ToolSearcher.roundsOf
      cases retrieved : session.searcher.retrieve env request round with
      | nil => exact ⟨rfl, .nothingFound, nofun, rfl⟩
      | cons candidate rest =>
          dsimp only
          rw [List.flatten_cons, ConfirmSession.offerEach_append]
          cases offered : session.offerEach env answers request (candidate :: rest) with
          | mk ending after =>
              cases ending with
              | some ending => exact ⟨rfl, .exhausted, nofun, rfl⟩
              | none =>
                  dsimp only
                  rw [← ConfirmSession.searcher_offerEach offered]
                  exact ih after

end Rounds

/-! ## Sessions -/

/-- What a session is to see to, whatever is found and answered. -/
structure Safe (request : ConfirmRequest) (searcher : ToolSearcher V)
    (outcome : ConfirmOutcome V) : Prop where
  /-- No name is offered again after a rejection. -/
  offers : outcome.session.offers.Pairwise fun earlier later =>
    earlier.confirmed = false → later.candidate.toolName ≠ earlier.candidate.toolName
  finite : outcome.rounds ≤ request.rounds
  /-- A tool that is loaded was accepted, and its entry in the vault passes the gate. -/
  loads : ∀ candidate promoted, outcome.ending = .activated candidate promoted →
    ⟨candidate, true⟩ ∈ outcome.session.offers ∧
      searcher.Passes (auditCandidate searcher.toolVault candidate.toolName)
  /-- Otherwise, no tool is loaded. -/
  same : ConfirmSession.NotLoaded outcome.ending →
    searcher.SameTools outcome.session.searcher

/-- A round finds a tool once, and what the gate lets pass as it is found is of a tool which it
lets pass as the vault has it. -/
structure RoundAgrees (request : ConfirmRequest) (searcher : ToolSearcher V)
    (results : List ToolStore.ToolSearchResult) : Prop where
  once : (results.map ToolStore.ToolSearchResult.toolName).Nodup
  current : request.activate = true → ∀ found ∈ results, searcher.Passes (asCandidate found) →
    searcher.Passes (auditCandidate searcher.toolVault found.toolName)

namespace ToolSearcher

/-- The rounds of a session in which all is rejected. -/
def sessionRounds (env : ConfirmEnv V) (request : ConfirmRequest) (searcher : ToolSearcher V) :
    List (List ToolStore.ToolSearchResult) :=
  if searcher.vault.isSome then searcher.roundsOf env request request.rounds 0 else []

variable (env : ConfirmEnv V) (request : ConfirmRequest) (searcher : ToolSearcher V)
  (answers : Answers)

theorem searchAndConfirm_eq :
    (searcher.searchAndConfirm env answers request).session =
        (ConfirmSession.offerEach env answers request
          (searcher.sessionRounds env request).flatten { searcher }).2 ∧
      ∃ last, ConfirmSession.NotLoaded last ∧
        (searcher.searchAndConfirm env answers request).ending =
          (ConfirmSession.offerEach env answers request
            (searcher.sessionRounds env request).flatten { searcher }).1.getD last := by
  unfold searchAndConfirm sessionRounds
  cases searcher.vault with
  | none => exact ⟨rfl, .noVault, nofun, rfl⟩
  | some vault => exact confirmRounds_eq { searcher }

theorem rounds_searchAndConfirm_le :
    (searcher.searchAndConfirm env answers request).rounds ≤ request.rounds := by
  unfold searchAndConfirm
  cases searcher.vault with
  | none => exact Nat.zero_le _
  | some vault =>
      have bound := rounds_confirmRounds_le env answers request request.rounds 0 { searcher }
      rwa [Nat.zero_add] at bound

theorem nodup_sessionRounds (agrees : ∀ results ∈ searcher.sessionRounds env request,
      RoundAgrees request searcher results) :
    ((searcher.sessionRounds env request).flatten.map
      ToolStore.ToolSearchResult.toolName).Nodup := by
  unfold sessionRounds at agrees ⊢
  split
  · rename_i stocked
    rw [if_pos stocked] at agrees
    exact nodup_roundsOf fun results member => (agrees results member).once
  · exact List.nodup_nil

theorem safe_of_roundAgrees (agrees : ∀ results ∈ searcher.sessionRounds env request,
      RoundAgrees request searcher results) :
    Safe request searcher (searcher.searchAndConfirm env answers request) := by
  obtain ⟨session, last, notLoaded, ending⟩ := searchAndConfirm_eq env request searcher answers
  refine ⟨?_, rounds_searchAndConfirm_le env request searcher answers, ?_, ?_⟩
  · obtain ⟨shown, isPrefix, offers⟩ := ConfirmSession.offers_offerEach
      (searcher.sessionRounds env request).flatten { searcher }
    have apart := (isPrefix.sublist.map ToolStore.ToolSearchResult.toolName).nodup
      (nodup_sessionRounds env request searcher agrees)
    rw [session]
    rw [List.map_nil, List.nil_append] at offers
    rw [← offers, List.map_map, List.nodup_iff_pairwise_ne, List.pairwise_map] at apart
    exact apart.imp fun different _ same => different same.symm
  · intro candidate promoted loads
    rw [ending] at loads
    rw [session]
    generalize run : ConfirmSession.offerEach env answers request
      (searcher.sessionRounds env request).flatten { searcher } = outcome at loads ⊢
    obtain ⟨_ | isEnding, after⟩ := outcome
    · exact absurd loads (notLoaded candidate promoted)
    · cases loads
      obtain ⟨member, shown, activate, passes⟩ := ConfirmSession.accepted_offerEach run
      obtain ⟨results, isRound, isResult⟩ := List.mem_flatten.mp member
      exact ⟨shown, (agrees results isRound).current activate candidate isResult passes⟩
  · intro notLoaded
    rw [session]
    refine ConfirmSession.sameTools_offerEach _ { searcher } fun isEnding isEnd => ?_
    rw [ending, isEnd] at notLoaded
    exact notLoaded

/-- All answers are rejections but the one of this number. -/
def acceptsOnly (number : Nat) : Answers := fun index => some (index = number)

theorem roundAgrees_of_safe (safe : ∀ answers,
      Safe request searcher (searcher.searchAndConfirm env answers request)) :
    ∀ results ∈ searcher.sessionRounds env request, RoundAgrees request searcher results := by
  intro results isRound
  refine ⟨?_, fun activate found isResult passes => ?_⟩
  · -- A confirmer that rejects all is shown all.
    obtain ⟨after, run, offers⟩ := ConfirmSession.offerEach_of_refused env (fun _ => some false)
      request { searcher } (searcher.sessionRounds env request).flatten fun _ _ => rfl
    have apart := (safe fun _ => some false).offers
    rw [(searchAndConfirm_eq env request searcher _).1, run] at apart
    dsimp only at apart
    rw [offers, List.nil_append, List.pairwise_map] at apart
    have names : ((searcher.sessionRounds env request).flatten.map
        ToolStore.ToolSearchResult.toolName).Nodup :=
      List.pairwise_map.mpr (apart.imp fun different same => different rfl same.symm)
    exact ((List.sublist_flatten_of_mem isRound).map _).nodup names
  · -- The tool is the first that the confirmer accepts.
    obtain ⟨first, later, split⟩ :=
      List.append_of_mem (List.mem_flatten.mpr ⟨results, isRound, isResult⟩)
    obtain ⟨after, run, offers⟩ := ConfirmSession.offerEach_of_refused env
      (acceptsOnly first.length) request { searcher } first (by
        intro index before
        have other : 0 + index ≠ first.length := by omega
        exact decide_eq_false other)
    have accepts : (acceptsOnly first.length after.offers.length).getD false = true := by
      rw [offers]
      simp [acceptsOnly]
    have gated : after.searcher.Passes (asCandidate found) := by
      rw [ConfirmSession.searcher_offerEach run]
      exact passes_rejectAll.mpr passes
    obtain ⟨promoted, ended, isEnd⟩ :=
      ConfirmSession.offer_of_passes env accepts activate gated
    obtain ⟨-, last, -, ending⟩ :=
      searchAndConfirm_eq env request searcher (acceptsOnly first.length)
    rw [split, ConfirmSession.offerEach_append, run] at ending
    dsimp only at ending
    rw [ConfirmSession.offerEach_cons, isEnd] at ending
    exact ((safe (acceptsOnly first.length)).loads found promoted ending).2

/--
Whatever the confirmer answers, a session is safe exactly if each of its rounds finds a tool
once, and what is loaded at once passes the gate as the vault has it where it passes as it
was found.
-/
theorem searchAndConfirm_safe_iff :
    (∀ answers, Safe request searcher (searcher.searchAndConfirm env answers request)) ↔
      ∀ results ∈ searcher.sessionRounds env request, RoundAgrees request searcher results :=
  ⟨roundAgrees_of_safe env request searcher, fun agrees answers =>
    safe_of_roundAgrees env request searcher answers agrees⟩

end ToolSearcher

/-! ## Two versions of a tool -/

/-- An agent whose vault has a store with two versions of a tool. -/
def versionSeeker : ToolSearcher Unit where
  bridge := { agentId := "agent" }
  vault := some
    { entries := []
      store := run step (StoreState.empty none) twoVersions
      persistent := true }

def embedding : ConfirmEnv Unit where
  retrieving _ :=
    { ranking := unitRanking
      cone := { env := ⟨3, none, some fun _ => some ()⟩ }
      vault := { env := ⟨3, none, some fun _ => some ()⟩ }
      client := none }
  freshId := "record"

namespace ToolSearcher

/-- The second version is offered after the first was rejected. -/
theorem offered_after_rejection :
    ¬ ∀ answers, Safe { query := "tool" } versionSeeker
      (versionSeeker.searchAndConfirm embedding answers { query := "tool" }) := by
  intro safe
  let asked (offer : Offer) : String × Bool := (offer.candidate.toolName, offer.confirmed)
  have shown : (versionSeeker.searchAndConfirm embedding (fun _ => some false)
      { query := "tool" }).session.offers.map asked = [("tool", false), ("tool", false)] := by
    decide +kernel
  have apart : ((versionSeeker.searchAndConfirm embedding (fun _ => some false)
      { query := "tool" }).session.offers.map asked).Pairwise
        fun earlier later => earlier.2 = false → later.1 ≠ earlier.1 :=
    List.pairwise_map.mpr (safe fun _ => some false).offers
  rw [shown] at apart
  simp at apart

end ToolSearcher

end YouMi.Mcp

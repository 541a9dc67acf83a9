import YouMi.Observability.Audit

/-!
# What redaction hides

`Conceals` says what may be stored of a value.  A text under a sensitive key is hidden, also as
an item of lists and tuples there, and everything else is kept.  The code keeps to it except for
texts in lists, which it does not hide.
-/

namespace YouMi.Observability

open YouMi.Library YouMi.Mcp

/-! ## Sensitive names -/

/-- The names that the pattern looks for. -/
def sensitiveNames : List (List Char) :=
  ["apikey", "api_key", "api-key", "token", "secret", "password", "passwd", "credential",
    "authorization", "auth"].map String.toList

theorem reads_apiKey_iff {read : List Char} {groups : Captures Char} :
    (Pattern.sequence [.literal "api".toList, .optional (.char fun c => c = '_' || c = '-'),
      .literal "key".toList]).Reads read groups ↔
      read ∈ ["apikey", "api_key", "api-key"].map String.toList ∧ groups = [] := by
  constructor
  · rintro ⟨api, _, _, _, rfl, rfl, first, between, _, _, _, rfl, rfl, separator, key, _, _, _,
      rfl, rfl, last, rfl, rfl⟩
    obtain ⟨rfl, rfl⟩ := Pattern.reads_literal_iff.mp first
    obtain ⟨rfl, rfl⟩ := Pattern.reads_literal_iff.mp last
    rcases separator with ⟨c, separates, rfl, rfl⟩ | ⟨rfl, rfl⟩
    · rcases Bool.or_eq_true_iff.mp separates with same | same
      · rw [of_decide_eq_true same]
        decide
      · rw [of_decide_eq_true same]
        decide
    · decide
  · simp only [List.map_cons, List.map_nil, List.mem_cons, List.not_mem_nil, or_false]
    have joined (separator : List Char)
        (separates : (Pattern.optional (.char fun c => c = '_' || c = '-')).Reads separator []) :
        (Pattern.sequence [.literal "api".toList, .optional (.char fun c => c = '_' || c = '-'),
          .literal "key".toList]).Reads ("api".toList ++ separator ++ "key".toList) [] :=
      ⟨_, _, [], [], List.append_assoc .., rfl, Pattern.reads_literal_iff.mpr ⟨rfl, rfl⟩,
        separator, _, [], [], rfl, rfl, separates,
        _, [], [], [], (List.append_nil _).symm, rfl, Pattern.reads_literal_iff.mpr ⟨rfl, rfl⟩,
        rfl, rfl⟩
    rintro ⟨rfl | rfl | rfl, rfl⟩
    · exact joined [] (.inr ⟨rfl, rfl⟩)
    · exact joined ['_'] (.inl ⟨'_', rfl, rfl, rfl⟩)
    · exact joined ['-'] (.inl ⟨'-', rfl, rfl, rfl⟩)

theorem reads_sensitiveKeyRe_iff {read : List Char} {groups : Captures Char} :
    sensitiveKeyRe.Reads read groups ↔ read ∈ sensitiveNames ∧ groups = [] := by
  unfold sensitiveKeyRe
  rw [Pattern.reads_choice_iff (List.cons_ne_nil _ _)]
  simp only [List.exists_mem_cons_iff, reads_apiKey_iff, Pattern.reads_literal_iff,
    List.not_mem_nil, false_and, exists_false, or_false, ← or_and_right]
  simp only [sensitiveNames, List.map_cons, List.map_nil, List.mem_cons, List.not_mem_nil,
    or_false, or_assoc]

/-- A key is sensitive if one of the names stands in it, whatever the case of its letters. -/
theorem isSensitive_str_iff {ω : Type} {text : String} :
    (DatumKey.str text : DatumKey ω).isSensitive = true ↔
      ∃ name ∈ sensitiveNames, name <:+: text.toList.map ignoreCase := by
  rw [DatumKey.isSensitive, Pattern.search_iff]
  constructor
  · rintro ⟨read, groups, within, reads⟩
    exact ⟨read, (reads_sensitiveKeyRe_iff.mp reads).1, within⟩
  · rintro ⟨name, member, within⟩
    exact ⟨name, [], within, reads_sensitiveKeyRe_iff.mpr ⟨member, rfl⟩⟩

/-! ## What may be stored -/

section Conceals

variable {ω : Type}

mutual

/-- A value and what is stored of it; `secret` if it stands under a sensitive key, itself or as
an item of lists and tuples there. -/
inductive Conceals : (secret : Bool) → Datum ω → Datum ω → Prop where
  | hidden (text : String) : Conceals true (.str text) (.str redacted)
  | text (text : String) : Conceals false (.str text) (.str (truncated text))
  | list {secret : Bool} {items shown : List (Datum ω)} :
      ConcealsItems secret items shown → Conceals secret (.list items) (.list shown)
  | tuple {secret : Bool} {items shown : List (Datum ω)} :
      ConcealsItems secret items shown → Conceals secret (.tuple items) (.list shown)
  | dict {secret : Bool} {entries shown : List (DatumKey ω × Datum ω)} :
      ConcealsEntries entries shown → Conceals secret (.dict entries) (.dict shown)
  | other {secret : Bool} (value : ω) : Conceals secret (.other value) (.other value)

inductive ConcealsItems : (secret : Bool) → List (Datum ω) → List (Datum ω) → Prop where
  | nil {secret : Bool} : ConcealsItems secret [] []
  | cons {secret : Bool} {item shown : Datum ω} {rest later : List (Datum ω)} :
      Conceals secret item shown → ConcealsItems secret rest later →
        ConcealsItems secret (item :: rest) (shown :: later)

inductive ConcealsEntries :
    List (DatumKey ω × Datum ω) → List (DatumKey ω × Datum ω) → Prop where
  | nil : ConcealsEntries [] []
  | cons {key : DatumKey ω} {value shown : Datum ω} {rest later : List (DatumKey ω × Datum ω)} :
      Conceals key.isSensitive value shown → ConcealsEntries rest later →
        ConcealsEntries ((key, value) :: rest) ((key, shown) :: later)

end

mutual

/-- The texts in lists and tuples under a sensitive key, at any depth. -/
def listedSecrets (secret : Bool) : Datum ω → List String
  | .str text => if secret then [text] else []
  | .list items => secretsOfItems secret items
  | .tuple items => secretsOfItems secret items
  | .dict entries => secretsOfEntries entries
  | .other _ => []

def secretsOfItems (secret : Bool) : List (Datum ω) → List String
  | [] => []
  | item :: rest => listedSecrets secret item ++ secretsOfItems secret rest

/-- A text that is itself the value of a key stands in no list. -/
def secretsOfEntries : List (DatumKey ω × Datum ω) → List String
  | [] => []
  | (key, value) :: rest =>
      (match value with
        | .str _ => []
        | value => listedSecrets key.isSensitive value) ++ secretsOfEntries rest

end

theorem length_redacted_lt : redacted.length < maxStrLen := by
  decide

theorem truncated_eq_redacted_iff {text : String} : truncated text = redacted ↔ text = redacted := by
  unfold truncated
  split
  · rename_i long
    have short := length_redacted_lt
    constructor
    · intro same
      have length := congrArg String.length same
      rw [String.length_append, slice, String.length_ofList, List.length_take,
        String.length_toList] at length
      omega
    · rintro rfl
      omega
  · exact Iff.rfl

theorem conceals_str_iff {secret : Bool} {text : String} :
    Conceals secret (.str text : Datum ω) (.str (truncated text)) ↔
      (secret = true → text = redacted) := by
  constructor
  · rintro conceals rfl
    generalize shown : (.str (truncated text) : Datum ω) = stored at conceals
    cases conceals
    exact truncated_eq_redacted_iff.mp (Datum.str.inj shown)
  · intro plain
    cases secret with
    | false => exact .text text
    | true =>
        rw [truncated_eq_redacted_iff.mpr (plain rfl)]
        exact .hidden text

mutual

/-- What the code makes of a value conceals it if no text is left in lists under sensitive keys. -/
theorem conceals_redactData_iff (secret : Bool) (value : Datum ω) :
    Conceals secret value (redactData value) ↔
      ∀ text ∈ listedSecrets secret value, text = redacted := by
  cases value with
  | str text =>
      rw [redactData, conceals_str_iff, listedSecrets]
      cases secret <;> simp
  | list items =>
      rw [redactData, listedSecrets, ← concealsItems_redactItems_iff]
      exact ⟨fun | .list items => items, .list⟩
  | tuple items =>
      rw [redactData, listedSecrets, ← concealsItems_redactItems_iff]
      exact ⟨fun | .tuple items => items, .tuple⟩
  | dict entries =>
      rw [redactData, listedSecrets, ← concealsEntries_redactEntries_iff]
      exact ⟨fun | .dict entries => entries, .dict⟩
  | other value =>
      rw [redactData, listedSecrets]
      exact iff_of_true (.other value) nofun

theorem concealsItems_redactItems_iff (secret : Bool) (items : List (Datum ω)) :
    ConcealsItems secret items (redactItems items) ↔
      ∀ text ∈ secretsOfItems secret items, text = redacted := by
  cases items with
  | nil => exact iff_of_true .nil nofun
  | cons item rest =>
      rw [redactItems, secretsOfItems, List.forall_mem_append, ← conceals_redactData_iff,
        ← concealsItems_redactItems_iff]
      exact ⟨fun | .cons item rest => ⟨item, rest⟩, fun both => .cons both.1 both.2⟩

theorem concealsEntries_redactEntries_iff (entries : List (DatumKey ω × Datum ω)) :
    ConcealsEntries entries (redactEntries entries) ↔
      ∀ text ∈ secretsOfEntries entries, text = redacted := by
  cases entries with
  | nil => exact iff_of_true .nil nofun
  | cons entry rest =>
      obtain ⟨key, value⟩ := entry
      have split {shown : Datum ω} : ConcealsEntries ((key, value) :: rest)
          ((key, shown) :: redactEntries rest) ↔
            Conceals key.isSensitive value shown ∧ ConcealsEntries rest (redactEntries rest) :=
        ⟨fun | .cons value rest => ⟨value, rest⟩, fun both => .cons both.1 both.2⟩
      have later := concealsEntries_redactEntries_iff rest
      unfold redactEntries secretsOfEntries
      rw [List.forall_mem_append, ← later, split]
      refine and_congr_left fun _ => ?_
      cases value with
      | str text =>
          -- the one place where a text is hidden
          refine iff_of_true ?_ (fun _ none => absurd none List.not_mem_nil)
          cases key.isSensitive with
          | false => exact .text text
          | true => exact .hidden text
      | list items => exact conceals_redactData_iff key.isSensitive (.list items)
      | tuple items => exact conceals_redactData_iff key.isSensitive (.tuple items)
      | dict entries => exact conceals_redactData_iff key.isSensitive (.dict entries)
      | other value => exact conceals_redactData_iff key.isSensitive (.other value)

end

end Conceals

/-! ## The stored event -/

namespace AuditLogger

variable {ω : Type} (writes : AuditEvent ω → Bool) (logger : AuditLogger ω) (call : AuditCall ω)

theorem getLast?_append (event : AuditEvent ω) :
    (logger.append writes event).events.getLast? = some event := by
  have pos := logger.memory_pos
  have room := logger.room
  have kept : (logger.append writes event).events =
      logger.events.drop (logger.events.length + 1 - logger.maxMemory) ++ [event] :=
    List.drop_append_of_le_length (by omega)
  rw [kept, List.getLast?_concat]

/-- The event that is made is the last one stored, and its detail conceals what was given. -/
def KeepsSecrets : Prop :=
  ∀ event, (logger.log writes call).2 = some event →
    (logger.log writes call).1.events.getLast? = some event ∧
      Conceals false (.dict (namedEntries call.merged)) event.detail

theorem log_of_enabled (enabled : logger.enabled = true) :
    ∃ event, logger.log writes call = (logger.append writes event, some event) ∧
      event.detail = redactData (.dict (namedEntries call.merged)) := by
  refine ⟨_, by unfold log; rw [enabled]; rfl, ?_⟩
  dsimp only
  split
  · rename_i none
    rw [List.isEmpty_iff.mp none]
    rfl
  · rfl

theorem keepsSecrets_iff : logger.KeepsSecrets writes call ↔
    logger.enabled = false ∨
      ∀ text ∈ secretsOfEntries (namedEntries call.merged), text = redacted := by
  unfold KeepsSecrets
  cases enabled : logger.enabled with
  | false =>
      refine iff_of_true (fun event made => ?_) (.inl rfl)
      unfold log at made
      rw [enabled] at made
      cases made
  | true =>
      obtain ⟨event, logged, detail⟩ := logger.log_of_enabled writes call enabled
      have conceals := conceals_redactData_iff false (.dict (namedEntries call.merged))
      rw [listedSecrets, ← detail] at conceals
      rw [logged, ← conceals]
      constructor
      · intro keeps
        exact .inr (keeps event rfl).2
      · rintro (off | conceals) other made
        · cases off
        · cases made
          exact ⟨logger.getLast?_append writes event, conceals⟩

/-- `log("auth", detail={"tokens": ["abc"]})` -/
def tokensCall : AuditCall Unit where
  eventId := "1"
  timestamp := "2024-01-01T00:00:00+00:00"
  eventType := "auth"
  detail := some [("tokens", .list [.str "abc"])]

/-- The text in the list is stored as it is. -/
theorem not_keepsSecrets_tokensCall :
    ¬(create "" 1000 true).KeepsSecrets (fun _ => true) tokensCall := by
  intro keeps
  have sensitive : (DatumKey.str "tokens" : DatumKey Unit).isSensitive = true := by
    decide
  obtain ⟨event, logged, detail⟩ :=
    (create "" 1000 true).log_of_enabled (fun _ => true) tokensCall rfl
  obtain ⟨-, conceals⟩ := keeps event (congrArg Prod.snd logged)
  rw [detail, conceals_redactData_iff] at conceals
  have listed : secretsOfEntries (namedEntries tokensCall.merged) =
      listedSecrets (DatumKey.str "tokens" : DatumKey Unit).isSensitive
        (.list [.str "abc"] : Datum Unit) := rfl
  rw [listedSecrets, listed, sensitive] at conceals
  exact absurd (conceals "abc" List.mem_cons_self) (by decide)

end AuditLogger

end YouMi.Observability

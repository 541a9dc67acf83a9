import YouMi.Core.ToolExecutor
import YouMi.Library.OrderedDict
import YouMi.Mcp.Models
import Mathlib.Data.List.Nodup

/-!
# Tokens

`auth_from_env` of `security/auth.py` reads the tokens of the environment, and
`AuthManager.validate` finds the principal of a token.
-/

namespace YouMi.Security

open YouMi.Core YouMi.Library YouMi.Mcp YouMi.Python

inductive AuthRole where
  | admin
  | agent
  | viewer
  deriving DecidableEq

def AuthRole.value : AuthRole → String
  | .admin => "admin"
  | .agent => "agent"
  | .viewer => "viewer"

structure AuthToken where
  token : String
  role : AuthRole := .agent
  name : String := ""
  tenant : String := "default"
  deriving DecidableEq

structure Principal where
  role : AuthRole
  name : String := ""
  tenant : String := "default"
  tokenFingerprint : String := ""
  deriving DecidableEq

/-! ## Validation -/

structure AuthManager where
  tokens : List AuthToken

def isAscii (text : String) : Bool := text.toList.all fun c => c.toNat < 128

/-- The `TypeError` of `hmac.compare_digest`. -/
def nonAsciiComparison : Fault :=
  .exception "comparing strings with non-ASCII characters is not supported"

/-- `hmac.compare_digest` on texts. -/
def compareDigest (first second : String) : Except Fault Bool :=
  if isAscii first && isAscii second then .ok (first = second) else .error nonAsciiComparison

/-- The loop of `validate`. -/
def findToken (token : String) : OrderedDict String AuthToken → Except Fault (Option AuthToken)
  | [] => .ok none
  | (knownToken, entry) :: rest => do
      if ← compareDigest token knownToken then .ok (some entry) else findToken token rest

namespace AuthManager

def tokenMap (manager : AuthManager) : OrderedDict String AuthToken :=
  manager.tokens.foldl (fun known entry => known.assign entry.token entry) []

def enabled (manager : AuthManager) : Bool := 0 < manager.tokens.length

/-- `validate`, where `hexdigest` is that of the SHA-256 hash of the token. -/
def validate (hexdigest : String → String) (manager : AuthManager) (token : Option String) :
    Except Fault (Option Principal) :=
  if !manager.enabled then .ok (some { role := .admin, name := "anonymous" })
  else
    match token with
    | none => .ok none
    | some token =>
        if token = "" then .ok none
        else do
          let found ← findToken token manager.tokenMap
          .ok <| found.map fun entry =>
            { role := entry.role
              name := entry.name
              tenant := entry.tenant
              tokenFingerprint := slice (hexdigest token) 8 }

end AuthManager

/-! ## The environment -/

/-- The variables; one that is not set is read as the empty text. -/
structure AuthEnv where
  authTokens : String := ""
  authToken : String := ""
  authRole : String := ""
  authTenant : String := ""

/-- `_parse_role`; a text whose lower case is a role has only letters of ASCII. -/
def parseRole (raw : String) : AuthRole :=
  let lowered := String.ofList ((strip raw).toList.map Char.toLower)
  ([.admin, .agent, .viewer].find? fun role : AuthRole => role.value = lowered).getD .agent

/-- An item of `YOUMI_AUTH_TOKENS`. -/
def parseItem (item : String) : Option AuthToken :=
  let item := strip item
  if item = "" then none
  else
    let parts := (item.toList.splitOn ':').map String.ofList
    let rawToken := strip (parts.headD "")
    if rawToken = "" then none
    else some {
      token := rawToken
      role := (parts[1]?.map parseRole).getD .agent
      name := (parts[2]?.map strip).getD ""
      tenant := orElse ((parts[3]?.map strip).getD "default") "default" }

def authFromEnv (env : AuthEnv) : AuthManager :=
  let multi := strip env.authTokens
  let tokens :=
    if multi = "" then []
    else ((multi.toList.splitOn ';').map String.ofList).filterMap parseItem
  let single := strip env.authToken
  if single ≠ "" ∧ !tokens.any fun entry => entry.token = single then
    ⟨tokens ++ [{
      token := single
      role := parseRole env.authRole
      tenant := orElse (strip env.authTenant) "default" }]⟩
  else ⟨tokens⟩

end YouMi.Security

/-!
## Tokens that were configured

The text of `YOUMI_AUTH_TOKENS` is read as the entries that it was made of.  A token is compared
with the known ones in their order, and the comparison raises as soon as one of the two has a
character beyond ASCII.
-/

namespace YouMi.Security

open YouMi.Core YouMi.Library YouMi.Mcp YouMi.Python

/-! ## Configured entries -/

/-- A part of an entry: no separator in it, and no white space around it. -/
structure Plain (text : String) : Prop where
  noColon : ':' ∉ text.toList
  noSemicolon : ';' ∉ text.toList
  stripped : strip text = text

structure AuthEntry extends AuthToken where
  token_plain : Plain token
  name_plain : Plain name
  tenant_plain : Plain tenant
  token_ne : token ≠ ""
  tenant_ne : tenant ≠ ""

/-- `token:role:name:tenant`. -/
def AuthEntry.line (entry : AuthEntry) : String :=
  ":".intercalate [entry.token, entry.role.value, entry.name, entry.tenant]

structure AuthConfig where
  entries : List AuthEntry
  nonempty : entries ≠ []
  distinct : (entries.map fun entry => entry.token).Nodup

namespace AuthConfig

/-- The text of `YOUMI_AUTH_TOKENS`. -/
def text (config : AuthConfig) : String := ";".intercalate (config.entries.map AuthEntry.line)

def manager (config : AuthConfig) : AuthManager := authFromEnv { authTokens := config.text }

end AuthConfig

/-! ## Reading the text -/

/-- The text begins and ends with something other than white space. -/
structure Solid (text : List Char) : Prop where
  first : ∃ c rest, text = c :: rest ∧ isSpace c = false
  last : ∃ rest c, text = rest ++ [c] ∧ isSpace c = false

theorem Solid.trim_eq {text : List Char} (solid : Solid text) : trim isSpace text = text := by
  obtain ⟨c, rest, begins, keepFirst⟩ := solid.first
  have front : text.dropWhile isSpace = text := by
    rw [begins, List.dropWhile_cons_of_neg (by simp [keepFirst])]
  obtain ⟨rest, c, ends, keepLast⟩ := solid.last
  unfold trim
  rw [front, ends, List.reverse_append, List.reverse_singleton, List.singleton_append,
    List.dropWhile_cons_of_neg (by simp [keepLast]), List.reverse_cons, List.reverse_reverse]

theorem Solid.ne_empty {text : String} (solid : Solid text.toList) : text ≠ "" := by
  rintro rfl
  obtain ⟨c, rest, begins, -⟩ := solid.first
  cases begins

theorem solid_of_trim {text : List Char} (trimmed : trim isSpace text = text) (some : text ≠ []) :
    Solid text := by
  have front : text.dropWhile isSpace = text := by
    apply (List.dropWhile_suffix isSpace).sublist.eq_of_length_le
    have shorter : (trim isSpace text).length ≤ (text.dropWhile isSpace).length := by
      unfold trim
      rw [List.length_reverse]
      exact (List.dropWhile_suffix isSpace).length_le.trans List.length_reverse.le
    rwa [trimmed] at shorter
  have back : text.reverse.dropWhile isSpace = text.reverse := by
    rw [← List.reverse_eq_iff, ← front]
    exact trimmed.trans front.symm
  have starts {list : List Char} (kept : list.dropWhile isSpace = list) (some : list ≠ []) :
      ∃ c rest, list = c :: rest ∧ isSpace c = false := by
    cases list with
    | nil => exact absurd rfl some
    | cons c rest =>
        refine ⟨c, rest, rfl, ?_⟩
        by_contra space
        rw [List.dropWhile_cons_of_pos (by simpa using space)] at kept
        have shorter := (List.dropWhile_suffix (l := rest) isSpace).length_le
        rw [kept, List.length_cons] at shorter
        omega
  obtain ⟨c, rest, ends, keep⟩ := starts back (by simpa using some)
  refine ⟨starts front some, rest.reverse, c, ?_, keep⟩
  rw [← List.reverse_reverse text, ends, List.reverse_cons]

theorem Solid.join {first second : List Char} (hfirst : Solid first) (hsecond : Solid second)
    (between : List Char) : Solid (first ++ between ++ second) := by
  obtain ⟨c, rest, begins, keepFirst⟩ := hfirst.first
  obtain ⟨rest', d, ends, keepLast⟩ := hsecond.last
  refine ⟨⟨c, rest ++ between ++ second, ?_, keepFirst⟩, first ++ between ++ rest', d, ?_, keepLast⟩
  · rw [begins]
    rfl
  · rw [ends, ← List.append_assoc]

theorem Solid.intercalate {separator : List Char} {parts : List (List Char)}
    (solid : ∀ part ∈ parts, Solid part) (some : parts ≠ []) :
    Solid (separator.intercalate parts) := by
  induction parts with
  | nil => exact absurd rfl some
  | cons part rest ih =>
      cases rest with
      | nil =>
          rw [List.intercalate_singleton]
          exact solid part List.mem_cons_self
      | cons next rest =>
          rw [List.intercalate_cons_cons]
          exact (solid part List.mem_cons_self).join
            (ih (fun part member => solid part (List.mem_cons_of_mem _ member)) nofun) separator

theorem Plain.solid {text : String} (plain : Plain text) (some : text ≠ "") :
    Solid text.toList := by
  refine solid_of_trim ?_ (by simpa using some)
  have trimmed := congrArg String.toList plain.stripped
  rwa [strip, String.toList_ofList] at trimmed

theorem strip_of_solid {text : String} (solid : Solid text.toList) : strip text = text := by
  rw [strip, solid.trim_eq, String.ofList_toList]

theorem parseRole_value (role : AuthRole) : parseRole role.value = role := by
  cases role <;> decide

theorem role_plain (role : AuthRole) : Plain role.value := by
  cases role <;> exact ⟨by decide, by decide, by decide⟩

namespace AuthEntry

variable (entry : AuthEntry)

theorem toList_line : entry.line.toList =
    [':'].intercalate ([entry.token, entry.role.value, entry.name, entry.tenant].map
      String.toList) := by
  unfold line
  rw [String.toList_intercalate]
  rfl

theorem solid_line : Solid entry.line.toList := by
  have parts : entry.line.toList = entry.token.toList ++
      (':' :: entry.role.value.toList ++ ':' :: entry.name.toList ++ [':']) ++
        entry.tenant.toList := by
    rw [toList_line]
    simp
  rw [parts]
  exact (entry.token_plain.solid entry.token_ne).join (entry.tenant_plain.solid entry.tenant_ne) _

theorem semicolon_not_mem_line : ';' ∉ entry.line.toList := by
  rw [toList_line]
  simp [entry.token_plain.noSemicolon, (role_plain entry.role).noSemicolon,
    entry.name_plain.noSemicolon, entry.tenant_plain.noSemicolon]

theorem split_line : (entry.line.toList.splitOn ':').map String.ofList =
    [entry.token, entry.role.value, entry.name, entry.tenant] := by
  rw [toList_line, List.splitOn_intercalate]
  · simp
  · simp [entry.token_plain.noColon, (role_plain entry.role).noColon, entry.name_plain.noColon,
      entry.tenant_plain.noColon]
  · exact nofun

/-- An entry is read as it was written. -/
theorem parseItem_line : parseItem entry.line = some entry.toAuthToken := by
  have stripped : strip entry.line = entry.line := strip_of_solid entry.solid_line
  unfold parseItem
  dsimp only
  rw [stripped, if_neg entry.solid_line.ne_empty, split_line]
  have token : strip ([entry.token, entry.role.value, entry.name, entry.tenant].headD "") =
      entry.token := entry.token_plain.stripped
  rw [token, if_neg entry.token_ne]
  simp only [List.getElem?_cons_succ, List.getElem?_cons_zero, Option.map_some, Option.getD_some,
    parseRole_value, entry.name_plain.stripped, entry.tenant_plain.stripped]
  unfold orElse
  rw [if_neg entry.tenant_ne]

end AuthEntry

namespace AuthConfig

variable (config : AuthConfig)

theorem toList_text : config.text.toList =
    [';'].intercalate (config.entries.map fun entry => entry.line.toList) := by
  unfold text
  rw [String.toList_intercalate, List.map_map]
  rfl

theorem lines_ne_nil : (config.entries.map fun entry => entry.line.toList) ≠ [] := by
  simpa using config.nonempty

theorem solid_text : Solid config.text.toList := by
  rw [toList_text]
  apply Solid.intercalate _ config.lines_ne_nil
  intro part member
  obtain ⟨entry, _, rfl⟩ := List.mem_map.mp member
  exact entry.solid_line

/-- The text is split into the entries that it was made of. -/
theorem split_text : (config.text.toList.splitOn ';').map String.ofList =
    config.entries.map AuthEntry.line := by
  rw [toList_text, List.splitOn_intercalate _ ?_ config.lines_ne_nil, List.map_map]
  · exact List.map_congr_left fun entry _ => String.ofList_toList
  · intro part member
    obtain ⟨entry, _, rfl⟩ := List.mem_map.mp member
    exact entry.semicolon_not_mem_line

theorem tokens_manager : config.manager.tokens = config.entries.map AuthEntry.toAuthToken := by
  have items : (config.entries.map AuthEntry.line).filterMap parseItem =
      config.entries.map AuthEntry.toAuthToken := by
    rw [List.filterMap_map, ← List.filterMap_eq_map]
    apply List.filterMap_congr
    intro entry _
    rw [Function.comp_apply, entry.parseItem_line, Function.comp_apply]
  have unset : strip "" = "" := by decide
  have read : authFromEnv { authTokens := config.text } =
      ⟨((config.text.toList.splitOn ';').map String.ofList).filterMap parseItem⟩ := by
    unfold authFromEnv
    simp only [strip_of_solid config.solid_text, unset, config.solid_text.ne_empty, ne_eq,
      not_true_eq_false, false_and, if_false]
  unfold manager
  rw [read, split_text, items]

theorem tokenMap_manager : config.manager.tokenMap =
    config.entries.map fun entry => (entry.token, entry.toAuthToken) := by
  have distinct : (OrderedDict.keys (config.entries.map fun entry =>
      (entry.token, entry.toAuthToken))).Nodup := by
    unfold OrderedDict.keys
    rw [List.map_map]
    exact config.distinct
  rw [← List.nil_append (List.map _ _)] at distinct
  have assigned := OrderedDict.foldl_assign_append _ [] distinct
  rw [List.foldl_map, List.nil_append] at assigned
  unfold AuthManager.tokenMap
  rw [tokens_manager, List.foldl_map]
  exact assigned

theorem enabled_manager : config.manager.enabled = true := by
  unfold AuthManager.enabled
  rw [tokens_manager, List.length_map]
  exact decide_eq_true (List.length_pos_iff.mpr config.nonempty)

end AuthConfig

/-! ## Comparing a token -/

/-- The entries that a token is compared with before its own. -/
def comparedBefore (token : String) (entries : List AuthEntry) : List AuthEntry :=
  entries.takeWhile fun entry => entry.token ≠ token

theorem findToken_cons (token known : String) (entry : AuthToken)
    (rest : OrderedDict String AuthToken) :
    findToken token ((known, entry) :: rest) =
      match compareDigest token known with
      | .ok true => .ok (some entry)
      | .ok false => findToken token rest
      | .error fault => .error fault := by
  rw [findToken]
  cases compareDigest token known with
  | error fault => rfl
  | ok equal => cases equal <;> rfl

theorem findToken_of_ascii {token : String} (ascii : isAscii token) (entries : List AuthEntry) :
    findToken token (entries.map fun entry => (entry.token, entry.toAuthToken)) =
      if ∀ entry ∈ comparedBefore token entries, isAscii entry.token then
        .ok ((entries.find? fun entry => entry.token = token).map AuthEntry.toAuthToken)
      else .error nonAsciiComparison := by
  unfold comparedBefore
  induction entries with
  | nil => simp [findToken]
  | cons entry rest ih =>
      rw [List.map_cons, findToken_cons, List.takeWhile_cons, List.find?_cons]
      by_cases same : entry.token = token
      · -- the token itself is one of ASCII
        simp [compareDigest, same, ascii]
      · have different : token ≠ entry.token := Ne.symm same
        by_cases plain : isAscii entry.token
        · simp [compareDigest, ascii, plain, same, different, ih]
        · simp [compareDigest, plain, same]

theorem findToken_of_not_ascii {token : String} (ascii : ¬isAscii token)
    {entries : List AuthEntry} (nonempty : entries ≠ []) :
    findToken token (entries.map fun entry => (entry.token, entry.toAuthToken)) =
      .error nonAsciiComparison := by
  obtain ⟨entry, rest, rfl⟩ := List.exists_cons_of_ne_nil nonempty
  rw [List.map_cons, findToken_cons, compareDigest, if_neg (by simp [ascii])]

namespace AuthConfig

variable (hexdigest : String → String) (config : AuthConfig) (token : String)

/-- What an entry grants: its role, its name and its tenant. -/
def granted : Option (AuthRole × String × String) :=
  (config.entries.find? fun entry => entry.token = token).map fun entry =>
    (entry.role, entry.name, entry.tenant)

/-- The token is answered as configured, and nothing is raised. -/
def Answers : Prop :=
  (config.manager.validate hexdigest (some token)).map
      (Option.map fun principal => (principal.role, principal.name, principal.tenant)) =
    .ok (config.granted token)

variable {token}

theorem validate_of_ne (some : token ≠ "") :
    (config.manager.validate hexdigest (.some token)).map
        (Option.map fun principal => (principal.role, principal.name, principal.tenant)) =
      if isAscii token ∧ ∀ entry ∈ comparedBefore token config.entries, isAscii entry.token then
        .ok (config.granted token)
      else .error nonAsciiComparison := by
  unfold AuthManager.validate
  rw [enabled_manager, Bool.not_true, if_neg Bool.false_ne_true]
  dsimp only
  rw [if_neg some, tokenMap_manager]
  by_cases ascii : isAscii token
  · rw [findToken_of_ascii ascii]
    by_cases plain : ∀ entry ∈ comparedBefore token config.entries, isAscii entry.token
    · rw [if_pos plain, if_pos ⟨ascii, plain⟩]
      unfold granted
      cases config.entries.find? fun entry => entry.token = token <;> rfl
    · rw [if_neg plain, if_neg fun both => plain both.2]
      rfl
  · rw [findToken_of_not_ascii ascii config.nonempty, if_neg fun both => ascii both.1]
    rfl

theorem answers_empty : config.Answers hexdigest "" := by
  have none : config.granted "" = none := by
    unfold granted
    rw [List.find?_eq_none.mpr fun entry _ => by simpa using entry.token_ne]
    rfl
  unfold Answers AuthManager.validate
  rw [none, enabled_manager]
  rfl

theorem answers_iff : config.Answers hexdigest token ↔
    token = "" ∨
      isAscii token ∧ ∀ entry ∈ comparedBefore token config.entries, isAscii entry.token := by
  by_cases none : token = ""
  · subst none
    exact iff_of_true (config.answers_empty hexdigest) (.inl rfl)
  · unfold Answers
    rw [config.validate_of_ne hexdigest none]
    constructor
    · intro answered
      by_contra other
      rw [if_neg fun plain => other (.inr plain)] at answered
      cases answered
    · rintro (empty | plain)
      · exact absurd empty none
      · rw [if_pos plain]

/-- `secret:agent:a:t`. -/
def oneAgent : AuthConfig where
  entries := [{
    token := "secret"
    role := .agent
    name := "a"
    tenant := "t"
    token_plain := ⟨by decide, by decide, by decide⟩
    name_plain := ⟨by decide, by decide, by decide⟩
    tenant_plain := ⟨by decide, by decide, by decide⟩
    token_ne := by decide
    tenant_ne := by decide }]
  nonempty := List.cons_ne_nil _ _
  distinct := List.nodup_singleton _

/-- A client that sends a letter beyond ASCII is not rejected: the comparison raises. -/
theorem not_answers_umlaut : ¬oneAgent.Answers id "ü" := by
  intro answered
  have raised := oneAgent.validate_of_ne id (show "ü" ≠ "" by decide)
  rw [if_neg (fun plain => absurd plain.1 (by decide))] at raised
  rw [Answers, raised] at answered
  cases answered

end AuthConfig

end YouMi.Security

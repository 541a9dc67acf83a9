import YouMi.Tools.FileOps

/-!
# The working directory as a jail

Nothing but the directory of the provider is written to, in any run of the file tools.
What they answer can tell of files elsewhere only by a link in that directory: a detailed
listing and a search for text open what their links lead to, which no path check sees.
-/

namespace YouMi.Tools

open YouMi.Library YouMi.Library.FileTree YouMi.Python

/-- What the call answers does not depend on the files that links lead to. -/
def FileCall.Careful : FileCall → Prop
  | .listDirectory _ _ detail => detail = false
  | .textSearch .. => False
  | _ => True

theorem mapM_congr_of_mem {α β : Type} {f g : α → Option β} {items : List α}
    (same : ∀ item ∈ items, f item = g item) : items.mapM f = items.mapM g := by
  induction items with
  | nil => rfl
  | cons item items ih =>
      rw [List.mapM_cons, List.mapM_cons, same item List.mem_cons_self,
        ih fun later member => same later (List.mem_cons_of_mem item member)]

namespace Host

variable {host : Host} {t u : Files} {base place : Place}

/-! ## Resolving -/

/-- A path is resolved by the links there are. -/
theorem resolve_congr (same : t.links = u.links) : host.resolve t = host.resolve u := by
  funext path
  unfold resolve realpath
  rw [same]

theorem base_congr (same : t.links = u.links) : host.base t = host.base u := by
  unfold Host.base
  rw [resolve_congr same]

theorem underRoots_congr (same : t.links = u.links) (place : Place) (roots : List String) :
    host.underRoots t place roots = host.underRoots u place roots := by
  induction roots with
  | nil => rfl
  | cons root roots ih =>
      rw [underRoots, underRoots, resolve_congr same]
      cases host.resolve u (parsePath root) with
      | error raised => rfl
      | ok root => exact congrArg (fun rest => if root <:+ place then .ok true else rest) ih

theorem checkPath_congr (same : t.links = u.links) (place : Place) :
    host.checkPath t place = host.checkPath u place := by
  unfold checkPath
  rw [resolve_congr same]
  cases host.resolve u { absolute := true, names := place.reverse } with
  | error raised => rfl
  | ok resolved =>
      dsimp only
      rw [underRoots_congr same]

theorem resolveSafePath_congr (same : t.links = u.links) (path : String) :
    host.resolveSafePath t path = host.resolveSafePath u path := by
  unfold resolveSafePath
  rw [base_congr same]
  cases host.base u with
  | error raised => rfl
  | ok base =>
      dsimp only
      rw [resolve_congr same]
      simp only [checkPath_congr same]

/-- The process runs where no link is, and the name of the working directory leads to a
directory. -/
structure Jail (host : Host) (base : Place) (t : Files) : Prop where
  cwd : Real t.links host.cwd
  based : host.base t = .ok base
  dir : t.isDir base = true

/-- A policy that is enabled and has roots has one that the place is under. -/
def Allowed (host : Host) (t : Files) (place : Place) : Prop :=
  host.policy.enabled = true → host.policy.allowedRoots ≠ [] →
    ∃ root ∈ host.policy.allowedRoots, ∃ top,
      host.resolve t (parsePath root) = .ok top ∧ top <:+ place

theorem allowed_congr (same : t.links = u.links) : host.Allowed t place ↔ host.Allowed u place := by
  unfold Allowed
  rw [resolve_congr same]

theorem resolve_real {path : Route} (cwd : Real t.links host.cwd)
    (resolved : host.resolve t path = .ok place) : Real t.links place := by
  unfold resolve at resolved
  split at resolved
  · rename_i walked
    cases resolved
    refine walk_real ?_ walked
    split
    · exact real_nil
    · exact cwd
  · cases resolved

theorem Jail.real (jail : host.Jail base t) : Real t.links base :=
  resolve_real jail.cwd jail.based

theorem exists_of_underRoots {roots : List String}
    (under : host.underRoots t place roots = .ok true) :
    ∃ root ∈ roots, ∃ top, host.resolve t (parsePath root) = .ok top ∧ top <:+ place := by
  induction roots with
  | nil => cases under
  | cons root roots ih =>
      rw [underRoots] at under
      split at under
      · cases under
      · rename_i top resolved
        split at under
        · rename_i within
          exact ⟨root, List.mem_cons_self, top, resolved, within⟩
        · obtain ⟨other, member, found⟩ := ih under
          exact ⟨other, List.mem_cons_of_mem root member, found⟩

/-- A place that has been resolved passes the check under a root only. -/
theorem allowed_of_checkPath {checked : Place} (real : Real t.links place)
    (passed : host.checkPath t place = .ok checked) : host.Allowed t place := by
  intro enabled some_root
  unfold checkPath at passed
  split at passed
  · cases passed
  · rename_i resolved again
    have same : resolved = place := by
      unfold resolve at again
      split at again
      · rename_i walked
        cases again
        exact eq_of_realpath real walked
      · cases again
    subst same
    rw [if_neg (not_or.mpr ⟨some_root, by rw [enabled]; exact Bool.noConfusion⟩)] at passed
    split at passed
    · cases passed
    · rename_i under
      exact exists_of_underRoots under
    · cases passed

/-- A path that passes leads to a real place under the working directory. -/
theorem resolveSafePath_ok {path : String} (jail : host.Jail base t)
    (safe : host.resolveSafePath t path = .ok place) :
    Real t.links place ∧ base <:+ place ∧ host.Allowed t place := by
  unfold resolveSafePath at safe
  rw [jail.based] at safe
  dsimp only at safe
  split at safe
  · cases safe
  · rename_i resolved found
    have real := resolve_real jail.cwd found
    split at safe
    · rename_i under
      split at safe
      · cases safe
      · rename_i passed
        cases safe
        exact ⟨real, under, allowed_of_checkPath real passed⟩
    · cases safe

/-! ## Nothing else is written to -/

/-- Since the first tree nothing has gone, nothing outside the working directory has changed,
no link has come, and files have changed only where the policy allows it. -/
structure Confined (host : Host) (base : Place) (t u : Files) : Prop where
  grows : Grows base t u
  files : ∀ place content, u.node place = some (.file content) →
    t.node place = some (.file content) ∨ base <:+ place ∧ host.Allowed t place

theorem Confined.refl (host : Host) (base : Place) (t : Files) : host.Confined base t t :=
  ⟨Grows.refl base t, fun _ _ file => .inl file⟩

theorem Confined.trans {v : Files} (first : host.Confined base t u)
    (second : host.Confined base u v) : host.Confined base t v where
  grows := first.grows.trans second.grows
  files place content file := by
    rcases second.files place content file with old | ⟨under, allowed⟩
    · exact first.files place content old
    · exact .inr ⟨under, (allowed_congr first.grows.links).mp allowed⟩

/-- The working directory stays what it is. -/
theorem Jail.grown (jail : host.Jail base t) (grows : Grows base t u) : host.Jail base u where
  cwd := by
    rw [grows.links]
    exact jail.cwd
  based := (base_congr grows.links).trans jail.based
  dir := grows.dirs base jail.dir

/-- What a write leaves: nothing new, the directories it made, or a file in them at the
place to which its path leads. -/
theorem fileWrite_cases (jail : host.Jail base t) (path content mode encoding : String) :
    (host.fileWrite t path content mode encoding).1 = t ∨
      ∃ place made, host.resolveSafePath t path = .ok place ∧
        t.makeDirs place.tail = some made ∧
        ((host.fileWrite t path content mode encoding).1 = made ∨
          ∃ bytes, (host.fileWrite t path content mode encoding).1 =
            made.plant place (.file bytes)) := by
  unfold fileWrite
  split
  · exact .inl rfl
  · rename_i place safe
    split
    · exact .inl rfl
    · split
      · exact .inl rfl
      · rename_i made_ok
        obtain ⟨real, under, -⟩ := resolveSafePath_ok jail safe
        have links := (grows_makeDirs_tail under jail.dir made_ok).links
        have target {mode : String} {written : Files × Bool} {made : Files}
            (same : made.links = t.links)
            (put : host.writeAt made place mode encoding content = some written) :
            ∃ bytes, written.1 = made.plant place (.file bytes) := by
          unfold writeAt at put
          split at put
          · cases put
          · rename_i found walked
            rw [← same] at real
            cases eq_of_realpath real (realpath_of_find walked)
            obtain ⟨held, -, rfl⟩ := Option.map_eq_some_iff.mp put
            exact ⟨_, rfl⟩
        refine .inr ⟨place, _, safe, made_ok, ?_⟩
        dsimp only
        split
        · rename_i put
          exact .inr (target links put)
        · rename_i put
          exact .inr (target links put)
        · exact .inl rfl

theorem confined_fileWrite (jail : host.Jail base t) (path content mode encoding : String) :
    host.Confined base t (host.fileWrite t path content mode encoding).1 := by
  rcases fileWrite_cases jail path content mode encoding with same |
    ⟨place, made, safe, made_ok, left⟩
  · rw [same]
    exact Confined.refl host base t
  · obtain ⟨real, under, allowed⟩ := resolveSafePath_ok jail safe
    have grows := grows_makeDirs_tail under jail.dir made_ok
    have directories : host.Confined base t made :=
      ⟨grows, fun other held file => .inl (file_of_makeDirs made_ok file)⟩
    rcases left with same | ⟨bytes, same⟩
    · rw [same]
      exact directories
    · rw [same]
      refine ⟨grows.trans (grows_plant under nofun), fun other held file => ?_⟩
      by_cases there : other = place
      · subst there
        exact .inr ⟨under, allowed⟩
      · rw [node_plant_ne there] at file
        exact directories.files other held file

theorem confined_step (jail : host.Jail base t) (call : FileCall) :
    host.Confined base t (host.step t call) := by
  cases call with
  | fileWrite path content mode encoding => exact confined_fileWrite jail ..
  | _ => exact Confined.refl host base t

/-- Texts of one byte a character, searched for as they stand. -/
def asciiHost : Host where
  workDir := "/w"
  cwd := ["w"]
  steps := 40
  policy := {}
  encode _ _ text :=
    if text.toList.all fun c => c.toNat < 128 then
      some (text.toList.map fun c => UInt8.ofNat c.toNat)
    else none
  decode _ bytes := .ok (String.ofList (bytes.map fun byte => Char.ofNat byte.toNat))
  decodeIgnoring bytes := String.ofList (bytes.map fun byte => Char.ofNat byte.toNat)
  lower := id
  fnmatch _ pattern := pattern == "*"
  compile pattern _ := .ok fun line => line == pattern
  osError _ := ""
  loopError path := "Symlink loop from " ++ path
  dirSize _ := 4096

/-- A directory `w`, the file `secret` beside it, and a link to the file in the directory. -/
def linked (secret : List UInt8) : Files :=
  (((FileTree.empty (List UInt8)).plant ["w"] .dir).plant ["secret"] (.file secret)).plant
    ["out", "w"] (.link ⟨true, ["secret"]⟩)

theorem jail_linked (secret : List UInt8) : asciiHost.Jail ["w"] (linked secret) where
  cwd := real_cons_iff.mpr ⟨⟨rfl, by decide⟩, real_nil⟩
  based := rfl
  dir := rfl

/-- Where a place under the working directory is, it leads under it. -/
def Sealed (host : Host) (base : Place) (t : Files) : Prop :=
  ∀ name above found, base <:+ above → t.links (name :: above) ≠ none →
    t.realpath host.steps [] (name :: above).reverse = some found → base <:+ found

theorem sealed_congr (same : t.links = u.links) :
    host.Sealed base t ↔ host.Sealed base u := by
  unfold Sealed realpath
  rw [same]

/-- The trees differ in the contents of files outside the working directory only. -/
structure Twins (host : Host) (base : Place) (t u : Files) : Prop where
  jail : host.Jail base t
  alike : Alike base t u

theorem isDirAt_eq_bare (host : Host) (t : Files) (place : Place) :
    host.isDirAt t place = match (t.stat host.steps place).map Node.bare with
      | some .dir => true
      | _ => false := by
  unfold isDirAt
  cases t.stat host.steps place with
  | none => rfl
  | some node => cases node <;> rfl

theorem isFileAt_eq_bare (host : Host) (t : Files) (place : Place) :
    host.isFileAt t place = match (t.stat host.steps place).map Node.bare with
      | some (.file _) => true
      | _ => false := by
  unfold isFileAt
  cases t.stat host.steps place with
  | none => rfl
  | some node => cases node <;> rfl

section Answers

variable (alike : Alike base t u)

include alike

theorem isDirAt_congr : host.isDirAt t = host.isDirAt u := by
  funext place
  rw [isDirAt_eq_bare, isDirAt_eq_bare, alike.stat_bare]

theorem isFileAt_congr : host.isFileAt t = host.isFileAt u := by
  funext place
  rw [isFileAt_eq_bare, isFileAt_eq_bare, alike.stat_bare]

theorem stat_isNone_congr (place : Place) :
    (t.stat host.steps place).isNone = (u.stat host.steps place).isNone := by
  have bare := congrArg Option.isNone (alike.stat_bare host.steps place)
  rw [Option.isNone_map, Option.isNone_map] at bare
  exact bare

theorem walkFrom_congr (depth : Nat) (place : Place) :
    walkFrom host t depth place = walkFrom host u depth place := by
  induction depth generalizing place with
  | zero => rfl
  | succ depth ih =>
      rw [walkFrom, walkFrom, isDirAt_congr alike, alike.names, alike.links]
      simp only [ih]

theorem walkAll_congr : host.walkAll t = host.walkAll u := by
  funext place
  unfold walkAll
  rw [alike.isDir, alike.depth, walkFrom_congr alike]

theorem fileSearch_congr (pattern : String) (recursive : Bool) (maxResults : Int) :
    host.fileSearch t pattern recursive maxResults =
      host.fileSearch u pattern recursive maxResults := by
  unfold fileSearch
  rw [base_congr alike.links]
  cases host.base u with
  | error raised => rfl
  | ok base =>
      dsimp only
      rw [stat_isNone_congr alike, walkAll_congr alike, alike.names, isFileAt_congr alike,
        alike.isDir]

end Answers

/-- A real place under the working directory is opened there. -/
theorem stat_congr (alike : Alike base t u) (real : Real t.links place) (under : base <:+ place) :
    t.stat host.steps place = u.stat host.steps place :=
  alike.stat fun _ walked => eq_of_realpath real (realpath_of_find walked) ▸ under

/-- Where no link leads out, what is listed in a place under the working directory is too. -/
theorem stat_entry_congr (alike : Alike base t u) (closed : host.Sealed base t)
    (real : Real t.links place) (under : base <:+ place) {name : String}
    (listed : name ∈ t.names place) :
    t.stat host.steps (name :: place) = u.stat host.steps (name :: place) := by
  by_cases plain : t.links (name :: place) = none
  · refine stat_congr alike (real_cons_iff.mpr ⟨⟨plain, ?_⟩, real⟩)
      (under.trans (List.suffix_cons name place))
    rintro rfl
    exact t.named place listed
  · exact alike.stat fun found walked =>
      closed name place found under plain (realpath_of_find walked)

theorem fileRead_congr (twins : host.Twins base t u) (path encoding : String)
    (maxLines startLine : Int) :
    host.fileRead t path encoding maxLines startLine =
      host.fileRead u path encoding maxLines startLine := by
  unfold fileRead
  rw [← resolveSafePath_congr twins.alike.links]
  cases safe : host.resolveSafePath t path with
  | error raised => rfl
  | ok place =>
      obtain ⟨real, under, -⟩ := resolveSafePath_ok twins.jail safe
      dsimp only
      rw [stat_congr twins.alike real under]

/-- A listing without details tells of a link only whether it leads to a directory. -/
theorem entryLine_congr (twins : host.Twins base t u) {detail : Bool}
    (careful : detail = false ∨ host.Sealed base t) (real : Real t.links place)
    (under : base <:+ place) {name : String} (listed : name ∈ t.names place) :
    host.entryLine t detail place name = host.entryLine u detail place name := by
  unfold entryLine
  rcases careful with rfl | closed
  · rw [isDirAt_congr twins.alike]
    rfl
  · rw [stat_entry_congr twins.alike closed real under listed, isDirAt_congr twins.alike]

theorem listDirectory_congr (twins : host.Twins base t u) (path : String) (showHidden : Bool)
    {detail : Bool} (careful : detail = false ∨ host.Sealed base t) :
    host.listDirectory t path showHidden detail = host.listDirectory u path showHidden detail := by
  unfold listDirectory
  rw [← resolveSafePath_congr twins.alike.links]
  cases safe : host.resolveSafePath t path with
  | error raised => rfl
  | ok place =>
      obtain ⟨real, under, -⟩ := resolveSafePath_ok twins.jail safe
      have order : host.listedBefore t place = host.listedBefore u place := by
        unfold listedBefore
        rw [isDirAt_congr twins.alike]
      have lines : ((((t.names place).mergeSort (host.listedBefore t place)).filter fun name =>
            showHidden || name.toList.head? ≠ some '.').mapM (host.entryLine t detail place)) =
          (((t.names place).mergeSort (host.listedBefore t place)).filter fun name =>
            showHidden || name.toList.head? ≠ some '.').mapM (host.entryLine u detail place) := by
        refine mapM_congr_of_mem fun name member => ?_
        exact entryLine_congr twins careful real under
          (List.mem_mergeSort.mp (List.mem_of_mem_filter member))
      dsimp only
      rw [stat_congr twins.alike real under, lines, order, twins.alike.names]

/-- What is walked through is under the working directory and reached by no link. -/
theorem real_of_mem_walkFrom {depth : Nat} {visited : Place × List String}
    (real : Real t.links place) (under : base <:+ place)
    (member : visited ∈ walkFrom host t depth place) :
    Real t.links visited.1 ∧ base <:+ visited.1 ∧
      ∀ name ∈ visited.2, name ∈ t.names visited.1 := by
  induction depth generalizing place with
  | zero => cases member
  | succ depth ih =>
      rw [walkFrom] at member
      rcases List.mem_cons.mp member with rfl | deeper
      · exact ⟨real, under, fun name here => List.mem_of_mem_filter here⟩
      · obtain ⟨name, entered, within⟩ := List.mem_flatMap.mp deeper
        obtain ⟨directory, open_way⟩ := List.mem_filter.mp entered
        have plain : t.links (name :: place) = none :=
          Option.isNone_iff_eq_none.mp ((Bool.and_eq_true_iff.mp open_way).2)
        have named : name ≠ ".." := by
          rintro rfl
          exact t.named place (List.mem_of_mem_filter directory)
        exact ih (real_cons_iff.mpr ⟨⟨plain, named⟩, real⟩)
          (under.trans (List.suffix_cons name place)) within

theorem matchFiles_congr (alike : Alike base t u) (closed : host.Sealed base t)
    (isMatch : String → Bool) (maxResults : Int) (real : Real t.links place)
    (under : base <:+ place) {names : List String} (listed : ∀ name ∈ names, name ∈ t.names place)
    (done : Nat × List String) :
    matchFiles host t isMatch maxResults base place names done =
      matchFiles host u isMatch maxResults base place names done := by
  induction names generalizing done with
  | nil => rfl
  | cons name names ih =>
      obtain ⟨searched, found⟩ := done
      rw [matchFiles, matchFiles,
        stat_entry_congr alike closed real under (listed name List.mem_cons_self)]
      simp only [ih fun later member => listed later (List.mem_cons_of_mem name member)]

theorem matchDirs_congr (alike : Alike base t u) (closed : host.Sealed base t)
    (isMatch : String → Bool) (filePattern : String) (maxResults : Int)
    {visited : List (Place × List String)}
    (inside : ∀ one ∈ visited, Real t.links one.1 ∧ base <:+ one.1 ∧
      ∀ name ∈ one.2, name ∈ t.names one.1) (done : Nat × List String) :
    matchDirs host t isMatch filePattern maxResults base visited done =
      matchDirs host u isMatch filePattern maxResults base visited done := by
  induction visited generalizing done with
  | nil => rfl
  | cons one visited ih =>
      obtain ⟨place, names⟩ := one
      obtain ⟨real, under, listed⟩ := inside (place, names) List.mem_cons_self
      rw [matchDirs, matchDirs, matchFiles_congr alike closed isMatch maxResults real under
        (fun name member => listed name (List.mem_of_mem_filter member)) done]
      simp only [ih fun later member => inside later (List.mem_cons_of_mem _ member)]

theorem textSearch_congr (twins : host.Twins base t u) (closed : host.Sealed base t)
    (pattern filePattern : String) (caseSensitive : Bool) (maxResults : Int) :
    host.textSearch t pattern filePattern caseSensitive maxResults =
      host.textSearch u pattern filePattern caseSensitive maxResults := by
  have visited : ∀ one ∈ host.walkAll t base, Real t.links one.1 ∧ base <:+ one.1 ∧
      ∀ name ∈ one.2, name ∈ t.names one.1 := by
    intro one member
    unfold walkAll at member
    rw [if_pos twins.jail.dir] at member
    exact real_of_mem_walkFrom twins.jail.real (List.suffix_refl base) member
  unfold textSearch
  rw [← base_congr twins.alike.links, twins.jail.based]
  dsimp only
  rw [stat_isNone_congr twins.alike, ← walkAll_congr twins.alike]
  simp only [matchDirs_congr twins.alike closed _ filePattern maxResults visited]

/-- What is written to a place under the working directory is the same. -/
theorem writeAt_congr (alike : Alike base t u) (real : Real t.links place) (under : base <:+ place)
    (mode encoding text : String) :
    (host.writeAt t place mode encoding text = none ∧
      host.writeAt u place mode encoding text = none) ∨
      ∃ written written_too complete,
        host.writeAt t place mode encoding text = some (written, complete) ∧
        host.writeAt u place mode encoding text = some (written_too, complete) ∧
        Alike base written written_too := by
  unfold writeAt
  rw [← alike.find]
  cases walked : t.find host.steps [] place.reverse with
  | none => exact .inl ⟨rfl, rfl⟩
  | some found =>
      cases eq_of_realpath real (realpath_of_find walked)
      have same : heldAt t place = heldAt u place := by
        unfold heldAt
        rw [alike.inside place under]
      dsimp only
      rw [same]
      cases heldAt u place with
      | none => exact .inl ⟨rfl, rfl⟩
      | some held => exact .inr ⟨_, _, _, rfl, rfl, alike.plant place _⟩

/-- A write answers the same, and leaves twins. -/
theorem fileWrite_congr (twins : host.Twins base t u) (path content mode encoding : String) :
    (host.fileWrite t path content mode encoding).2 =
        (host.fileWrite u path content mode encoding).2 ∧
      Alike base (host.fileWrite t path content mode encoding).1
        (host.fileWrite u path content mode encoding).1 := by
  unfold fileWrite
  rw [← resolveSafePath_congr twins.alike.links]
  cases safe : host.resolveSafePath t path with
  | error raised => exact ⟨rfl, twins.alike⟩
  | ok place =>
      obtain ⟨real, under, -⟩ := resolveSafePath_ok twins.jail safe
      dsimp only
      rw [stat_congr twins.alike real under]
      by_cases refused : mode = "create" ∧ (u.stat host.steps place).isSome = true
      · rw [if_pos refused, if_pos refused]
        exact ⟨rfl, twins.alike⟩
      · rw [if_neg refused, if_neg refused]
        rcases twins.alike.makeDirs place.tail with ⟨stuck, stuck_too⟩ |
          ⟨made, made_too, made_ok, made_too_ok, both⟩
        · rw [stuck, stuck_too]
          exact ⟨rfl, twins.alike⟩
        · rw [made_ok, made_too_ok]
          dsimp only
          rw [← (grows_makeDirs_tail under twins.jail.dir made_ok).links] at real
          rcases writeAt_congr both real under mode encoding content with ⟨shut, shut_too⟩ |
            ⟨written, written_too, complete, yes, yes_too, after⟩
          · rw [shut, shut_too]
            exact ⟨rfl, both⟩
          · rw [yes, yes_too]
            cases complete with
            | false => exact ⟨rfl, after⟩
            | true => exact ⟨rfl, after⟩

/-- Every call answers the same in twins, and leaves twins. -/
theorem call_congr (twins : host.Twins base t u) {call : FileCall}
    (careful : call.Careful ∨ host.Sealed base t) :
    (host.call t call).2 = (host.call u call).2 ∧
      Alike base (host.call t call).1 (host.call u call).1 := by
  cases call with
  | fileSearch pattern recursive maxResults =>
      exact ⟨fileSearch_congr twins.alike pattern recursive maxResults, twins.alike⟩
  | fileRead path encoding maxLines startLine =>
      exact ⟨fileRead_congr twins path encoding maxLines startLine, twins.alike⟩
  | fileWrite path content mode encoding => exact fileWrite_congr twins path content mode encoding
  | listDirectory path showHidden detail =>
      exact ⟨listDirectory_congr twins path showHidden careful, twins.alike⟩
  | textSearch pattern filePattern caseSensitive maxResults =>
      exact ⟨textSearch_congr twins (careful.resolve_left id) pattern filePattern caseSensitive
        maxResults, twins.alike⟩

-- A search for text opens what the link leads to.
example : asciiHost.textSearch (linked [65]) "A" "*" true 30 ≠
    asciiHost.textSearch (linked [66]) "A" "*" true 30 := by decide +kernel

end Host

end YouMi.Tools

/-!
## What is written to a file is read from it

A file in the working directory holds what the writes whose paths lead to it make of what
it held, in the order in which they come and whatever is called between them.
-/

namespace YouMi.Tools

open YouMi.Library YouMi.Library.FileTree YouMi.Python

namespace Host

variable {host : Host} {t u : Files} {base place : Place}

/-- What the codec promises of an encoding: texts that follow each other are read as one. -/
structure Codec (host : Host) (encoding : String) (Spells : List UInt8 → String → Prop) :
    Prop where
  read : ∀ {bytes text}, Spells bytes text → host.decode encoding bytes = .ok text
  nothing : Spells [] ""
  append : ∀ {bytes text more text'}, Spells bytes text →
    host.encode encoding bytes.isEmpty text' = some more → Spells (bytes ++ more) (text ++ text')

/-- The call, if it writes to the place, does so in the encoding, which has its characters. -/
def Encodes (host : Host) (t : Files) (place : Place) (encoding : String) : FileCall → Prop
  | .fileWrite path content _ written =>
      host.resolveSafePath t path = .ok place →
        written = encoding ∧ ∀ fresh, (host.encode encoding fresh content).isSome
  | _ => True

/-- What the text of a file that exists is after a call. -/
def textAfter (host : Host) (t : Files) (place : Place) (text : String) : FileCall → String
  | .fileWrite path content mode _ =>
      match host.resolveSafePath t path with
      | .error _ => text
      | .ok target =>
          if target ≠ place ∨ mode = "create" then text
          else if mode = "append" then text ++ content else content
  | _ => text

theorem textAfter_congr (same : t.links = u.links) :
    host.textAfter t place = host.textAfter u place := by
  funext text call
  cases call with
  | fileWrite path content mode encoding =>
      dsimp only [textAfter]
      rw [resolveSafePath_congr same]
  | _ => rfl

theorem encodes_congr (same : t.links = u.links) (encoding : String) (call : FileCall) :
    host.Encodes t place encoding call ↔ host.Encodes u place encoding call := by
  cases call with
  | fileWrite path content mode written =>
      dsimp only [Encodes]
      rw [resolveSafePath_congr same]
  | _ => exact Iff.rfl

theorem length_resolve_le {path : Route} (absolute : path.absolute = true)
    (resolved : host.resolve t path = .ok place) : place.length ≤ host.steps := by
  unfold resolve at resolved
  rw [if_pos absolute] at resolved
  split at resolved
  · rename_i walked
    cases resolved
    have reached := length_walk_le walked
    rw [List.length_nil, Nat.zero_add] at reached
    exact reached
  · cases resolved

/-- A path is resolved to a place that can be opened in as many steps. -/
theorem length_resolveSafePath_le {path : String}
    (safe : host.resolveSafePath t path = .ok place) : place.length ≤ host.steps := by
  unfold resolveSafePath at safe
  split at safe
  · cases safe
  · dsimp only at safe
    split at safe
    · cases safe
    · rename_i resolved found
      have bound : resolved.length ≤ host.steps := by
        refine length_resolve_le ?_ found
        split
        · assumption
        · rfl
      split at safe
      · split at safe
        · cases safe
        · cases safe
          exact bound
      · cases safe

/-- A write elsewhere leaves the file. -/
theorem file_of_fileWrite_ne (jail : host.Jail base t) {bytes : List UInt8}
    (file : t.node place = some (.file bytes)) {path : String} (content mode encoding : String)
    (elsewhere : host.resolveSafePath t path ≠ .ok place) :
    (host.fileWrite t path content mode encoding).1.node place = some (.file bytes) := by
  rcases fileWrite_cases jail path content mode encoding with same |
    ⟨target, made, safe, made_ok, left⟩
  · rw [same]
    exact file
  · have kept : made.node place = some (.file bytes) :=
      node_makeDirs made_ok (by rw [file]; exact nofun) ▸ file
    rcases left with same | ⟨written, same⟩
    · rw [same]
      exact kept
    · rw [same, node_plant_ne]
      · exact kept
      · rintro rfl
        exact elsewhere safe

/-- A write to a file that there is. -/
theorem fileWrite_of_file {bytes : List UInt8} (real : Real t.links place)
    (enough : place.length ≤ host.steps) (file : t.node place = some (.file bytes))
    {path : String} (content mode encoding : String)
    (safe : host.resolveSafePath t path = .ok place) :
    (host.fileWrite t path content mode encoding).1.node place =
      some (.file (if mode = "create" then bytes else
        let kept := if mode = "append" then bytes else []
        kept ++ (host.encode encoding kept.isEmpty content).getD [])) := by
  have stat : t.stat host.steps place = some (.file bytes) :=
    (stat_of_real real enough).trans file
  have free := free_of_file real file
  unfold fileWrite
  rw [safe]
  dsimp only
  by_cases create : mode = "create"
  · rw [if_pos create, if_pos ⟨create, by rw [stat]; rfl⟩]
    exact file
  · rw [if_neg create, if_neg fun both => create both.1]
    have up : t.isDir place.tail = true := free.2.1
    rw [makeDirs_of_isDir up]
    dsimp only
    have found : t.find host.steps [] place.reverse = some place := by
      unfold FileTree.stat at stat
      cases walked : t.find host.steps [] place.reverse with
      | none =>
          rw [walked] at stat
          cases stat
      | some found => exact congrArg some (eq_of_realpath real (realpath_of_find walked))
    have held : heldAt t place = some bytes := by
      unfold heldAt
      rw [file]
    unfold writeAt
    rw [found]
    dsimp only
    rw [held]
    dsimp only [Option.map_some]
    cases host.encode encoding (if mode = "append" then bytes else []).isEmpty content with
    | none => exact (node_plant free _ place).trans (if_pos rfl)
    | some more => exact (node_plant free _ place).trans (if_pos rfl)

/-- Each call makes of the file the text that it should. -/
theorem spells_step {encoding : String} {Spells : List UInt8 → String → Prop}
    (codec : host.Codec encoding Spells) (jail : host.Jail base t) (real : Real t.links place)
    (enough : place.length ≤ host.steps) {bytes : List UInt8}
    (file : t.node place = some (.file bytes)) {text : String} (spells : Spells bytes text)
    {call : FileCall} (encodes : host.Encodes t place encoding call) :
    ∃ later, (host.step t call).node place = some (.file later) ∧
      Spells later (host.textAfter t place text call) := by
  cases call with
  | fileWrite path content mode written =>
      dsimp only [step, Host.call, textAfter]
      cases safe : host.resolveSafePath t path with
      | error raised =>
          have elsewhere : host.resolveSafePath t path ≠ .ok place := by
            rw [safe]
            exact nofun
          exact ⟨bytes, file_of_fileWrite_ne jail file content mode written elsewhere, spells⟩
      | ok target =>
          by_cases there : target = place
          · subst there
            obtain ⟨rfl, complete⟩ := encodes safe
            refine ⟨_, fileWrite_of_file real enough file content mode written safe, ?_⟩
            dsimp only
            by_cases create : mode = "create"
            · rw [if_pos create, if_pos (.inr create)]
              exact spells
            · rw [if_neg create, if_neg (not_or.mpr ⟨not_not_intro rfl, create⟩)]
              by_cases appended : mode = "append"
              · rw [if_pos appended, if_pos appended]
                obtain ⟨more, encoded⟩ := Option.isSome_iff_exists.mp (complete bytes.isEmpty)
                rw [encoded]
                exact codec.append spells encoded
              · rw [if_neg appended, if_neg appended]
                obtain ⟨more, encoded⟩ := Option.isSome_iff_exists.mp (complete true)
                rw [List.isEmpty_nil, encoded]
                have fresh := codec.append codec.nothing encoded
                rw [String.empty_append] at fresh
                exact fresh
          · have elsewhere : host.resolveSafePath t path ≠ .ok place := by
              rw [safe]
              exact fun same => there (Except.ok.inj same)
            dsimp only
            rw [if_pos (.inl there)]
            exact ⟨bytes, file_of_fileWrite_ne jail file content mode written elsewhere, spells⟩
  | _ => exact ⟨bytes, file, spells⟩

theorem spells_run {encoding : String} {Spells : List UInt8 → String → Prop}
    (codec : host.Codec encoding Spells) (jail : host.Jail base t) (real : Real t.links place)
    (enough : place.length ≤ host.steps) {bytes : List UInt8}
    (file : t.node place = some (.file bytes)) {text : String} (spells : Spells bytes text)
    {calls : List FileCall} (encodes : ∀ call ∈ calls, host.Encodes t place encoding call) :
    ∃ later, (run host.step t calls).node place = some (.file later) ∧
      Spells later (calls.foldl (host.textAfter t place) text) := by
  induction calls generalizing t bytes text with
  | nil => exact ⟨bytes, file, spells⟩
  | cons call calls ih =>
      obtain ⟨later, held, spelled⟩ :=
        spells_step codec jail real enough file spells (encodes call List.mem_cons_self)
      have grows := (confined_step jail call).grows
      rw [← textAfter_congr grows.links] at spelled
      rw [run_cons, List.foldl_cons, ← textAfter_congr grows.links]
      refine ih (jail.grown grows) ?_ held spelled fun other member => ?_
      · rw [grows.links]
        exact real
      · exact (encodes_congr grows.links encoding other).mpr
          (encodes other (List.mem_cons_of_mem call member))

/-- The bytes are those of the characters. -/
def AsciiSpells (bytes : List UInt8) (text : String) : Prop :=
  bytes.map (fun byte => Char.ofNat byte.toNat) = text.toList

theorem char_ofNat_byte {c : Char} (ascii : c.toNat < 128) :
    Char.ofNat (UInt8.ofNat c.toNat).toNat = c := by
  have small : (UInt8.ofNat c.toNat).toNat = c.toNat := by
    rw [UInt8.toNat_ofNat']
    omega
  rw [small, Char.ofNat_toNat]

theorem codec_ascii (encoding : String) : asciiHost.Codec encoding AsciiSpells where
  read spells := by
    dsimp only [asciiHost]
    rw [spells, String.ofList_toList]
  nothing := rfl
  append := by
    intro bytes text more text' spells encoded
    dsimp only [asciiHost] at encoded
    split at encoded
    · rename_i ascii
      cases encoded
      unfold AsciiSpells
      rw [List.map_append, spells, String.toList_append, List.map_map]
      refine congrArg (text.toList ++ ·) ?_
      calc text'.toList.map ((fun byte => Char.ofNat byte.toNat) ∘ fun c => UInt8.ofNat c.toNat)
          = text'.toList.map id := List.map_congr_left fun c member =>
            char_ofNat_byte (of_decide_eq_true (List.all_eq_true.mp ascii c member))
        _ = text'.toList := List.map_id _
    · cases encoded

/-- A directory `w` with the file `n` in it. -/
def noted : Files :=
  ((FileTree.empty (List UInt8)).plant ["w"] .dir).plant ["n", "w"] (.file [65])

def noteCalls : List FileCall :=
  [.fileWrite "./n" "B" "append" "utf-8", .fileWrite "m" "C" "overwrite" "utf-8",
    .fileWrite "/w/n" "D" "create" "utf-8"]

example : noteCalls.foldl (asciiHost.textAfter noted ["n", "w"]) "A" = "AB" := by decide +kernel

end Host

end YouMi.Tools

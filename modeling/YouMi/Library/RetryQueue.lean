import Mathlib.Algebra.BigOperators.Group.List.Lemmas
import Mathlib.Algebra.BigOperators.Ring.List
import Mathlib.Algebra.Order.BigOperators.Group.List
import Mathlib.Algebra.Order.Ring.Nat
import Mathlib.Data.List.Perm.Basic
import Mathlib.Data.List.Count
import YouMi.Library.OrderedDict
import YouMi.Library.Runs

/-!
# Queues whose items are tried again

A round takes items from the front of a queue and works on them key by key.  Items
that come to nothing are queued again, until their key has had as many such attempts in
a row as the limit says; then they are given up.  Every item ends exactly once, and the
queue is empty after as many rounds as the limit allows for each item.
-/

namespace YouMi.Library

variable {κ α : Type*} [DecidableEq κ]

/-! ## Items by key -/

/-- `grouped[k].append(item)`, where `grouped` is a `defaultdict(list)`. -/
def appendTo (k : κ) (item : α) : OrderedDict κ (List α) → OrderedDict κ (List α)
  | [] => [(k, [item])]
  | (other, given) :: rest =>
      if other = k then (other, given ++ [item]) :: rest
      else (other, given) :: appendTo k item rest

/-- The items under their keys, in the order in which the keys come. -/
def groupBy (key : α → κ) (items : List α) : OrderedDict κ (List α) :=
  items.foldl (fun grouped item => appendTo (key item) item grouped) []

section Grouping

variable {key : α → κ} {grouped : OrderedDict κ (List α)} {k : κ} {item : α}

theorem mem_keys_appendTo {other : κ} :
    other ∈ (appendTo k item grouped).keys ↔ other = k ∨ other ∈ grouped.keys := by
  induction grouped with
  | nil => simp [appendTo, OrderedDict.keys]
  | cons group rest ih =>
      obtain ⟨first, given⟩ := group
      unfold appendTo
      split
      · rename_i same
        simp [OrderedDict.keys, same]
      · change other ∈ first :: OrderedDict.keys (appendTo k item rest) ↔
          other = k ∨ other ∈ first :: OrderedDict.keys rest
        rw [List.mem_cons, List.mem_cons, ih]
        exact or_left_comm

theorem nodup_keys_appendTo (distinct : grouped.keys.Nodup) :
    (appendTo k item grouped).keys.Nodup := by
  induction grouped with
  | nil => exact List.nodup_singleton k
  | cons group rest ih =>
      obtain ⟨first, given⟩ := group
      obtain ⟨absent, distinct⟩ := List.nodup_cons.mp distinct
      unfold appendTo
      split
      · exact List.nodup_cons.mpr ⟨absent, distinct⟩
      · rename_i ne
        refine List.nodup_cons.mpr ⟨fun member => ?_, ih distinct⟩
        exact (mem_keys_appendTo.mp member).elim ne absent

theorem flatMap_appendTo :
    ((appendTo k item grouped).flatMap Prod.snd).Perm (grouped.flatMap Prod.snd ++ [item]) := by
  induction grouped with
  | nil => exact .refl _
  | cons group rest ih =>
      obtain ⟨first, given⟩ := group
      unfold appendTo
      split
      · simp only [List.flatMap_cons, List.append_assoc]
        exact List.perm_append_comm.append_left given
      · simp only [List.flatMap_cons, List.append_assoc]
        exact ih.append_left given

theorem mem_appendTo {group : κ × List α} (member : group ∈ appendTo k item grouped) :
    group ∈ grouped ∨ group.1 = k ∧ ∃ given, group.2 = given ++ [item] ∧
      (given = [] ∨ (k, given) ∈ grouped) := by
  induction grouped with
  | nil =>
      rw [List.mem_singleton.mp member]
      exact .inr ⟨rfl, [], rfl, .inl rfl⟩
  | cons head rest ih =>
      obtain ⟨first, given⟩ := head
      unfold appendTo at member
      split at member
      · rename_i same
        subst same
        rcases List.mem_cons.mp member with rfl | later
        · exact .inr ⟨rfl, given, rfl, .inr (.head _)⟩
        · exact .inl (.tail _ later)
      · rcases List.mem_cons.mp member with rfl | later
        · exact .inl (.head _)
        · rcases ih later with here | ⟨isKey, given, same, before⟩
          · exact .inl (.tail _ here)
          · exact .inr ⟨isKey, given, same, before.imp_right (.tail _)⟩

/-- Each key stands once, with all the items that have it. -/
structure Grouped (key : α → κ) (items : List α) (grouped : OrderedDict κ (List α)) : Prop where
  nodup : grouped.keys.Nodup
  perm : (grouped.flatMap Prod.snd).Perm items
  nonempty : ∀ group ∈ grouped, group.2 ≠ []
  keyed : ∀ group ∈ grouped, ∀ item ∈ group.2, key item = group.1

theorem Grouped.appendTo {items : List α} (before : Grouped key items grouped) (item : α) :
    Grouped key (items ++ [item]) (appendTo (key item) item grouped) where
  nodup := nodup_keys_appendTo before.nodup
  perm := flatMap_appendTo.trans (before.perm.append_right _)
  nonempty := by
    intro group member
    rcases mem_appendTo member with here | ⟨-, given, same, -⟩
    · exact before.nonempty group here
    · rw [same]
      exact List.append_ne_nil_of_right_ne_nil _ (List.cons_ne_nil _ _)
  keyed := by
    intro group member item' inGroup
    rcases mem_appendTo member with here | ⟨isKey, given, same, known⟩
    · exact before.keyed group here item' inGroup
    · rw [same] at inGroup
      rcases List.mem_append.mp inGroup with earlier | now
      · rcases known with rfl | there
        · exact absurd earlier List.not_mem_nil
        · exact (before.keyed _ there item' earlier).trans isKey.symm
      · rw [List.mem_singleton.mp now, isKey]

theorem grouped_groupBy (key : α → κ) (items : List α) : Grouped key items (groupBy key items) := by
  have onwards (before after : List α) {grouped : OrderedDict κ (List α)}
      (start : Grouped key before grouped) : Grouped key (before ++ after)
        (after.foldl (fun grouped item => YouMi.Library.appendTo (key item) item grouped)
          grouped) := by
    induction after generalizing before grouped with
    | nil =>
        rw [List.append_nil]
        exact start
    | cons item rest ih =>
        have next := ih (before ++ [item]) (start.appendTo item)
        rwa [List.append_assoc] at next
  exact onwards [] items ⟨List.nodup_nil, .refl _, nofun, nofun⟩

end Grouping

/-! ## The queue -/

namespace RetryQueue

/-- How the work on the items of a key comes out: it is not possible, it changes something or it
comes to nothing. -/
inductive Verdict where
  | errored
  | done
  | idle
  deriving DecidableEq

/-- How an item ends. -/
inductive Ending where
  | errored
  | done
  | givenUp
  deriving DecidableEq

/-- Work on the items of a key, as far as it was possible. -/
structure Attempt (κ : Type*) where
  key : κ
  idle : Bool
  givenUp : Bool
  deriving DecidableEq

/-- How many items a round takes and how the work on them comes out. -/
structure Round (κ α : Type*) where
  size : Nat
  pos : 0 < size
  verdict : κ → List α → Verdict

/-- The last attempts of a key that came to nothing. -/
def idleRun (k : κ) (attempts : List (Attempt κ)) : Nat :=
  ((attempts.filter fun attempt => attempt.key = k).reverse.takeWhile Attempt.idle).length

/-- What is given up has come to nothing as often in a row as the limit says, or as a multiple of
it says. -/
def GivesUpAtLimit (limit : Nat) (attempts : List (Attempt κ)) : Prop :=
  ∀ before attempt after, attempts = before ++ attempt :: after →
    (attempt.givenUp = true ↔ attempt.idle = true ∧ limit ∣ idleRun attempt.key before + 1)

theorem idleRun_append (k : κ) (attempts : List (Attempt κ)) (attempt : Attempt κ) :
    idleRun k (attempts ++ [attempt]) =
      if attempt.key = k then if attempt.idle then idleRun k attempts + 1 else 0
      else idleRun k attempts := by
  unfold idleRun
  rw [List.filter_append]
  by_cases same : attempt.key = k
  · rw [if_pos same, List.filter_cons_of_pos (by simpa using same), List.filter_nil,
      List.reverse_append, List.reverse_singleton, List.singleton_append]
    cases isIdle : attempt.idle with
    | true => simp [isIdle]
    | false => simp [isIdle]
  · rw [if_neg same, List.filter_cons_of_neg (by simpa using same), List.filter_nil,
      List.append_nil]

theorem GivesUpAtLimit.append {limit : Nat} {attempts : List (Attempt κ)}
    (before : GivesUpAtLimit limit attempts) {attempt : Attempt κ}
    (last : attempt.givenUp = true ↔
      attempt.idle = true ∧ limit ∣ idleRun attempt.key attempts + 1) :
    GivesUpAtLimit limit (attempts ++ [attempt]) := by
  intro front found after same
  rcases List.eq_nil_or_concat after with rfl | ⟨middle, final, rfl⟩
  · obtain ⟨rfl, isLast⟩ := List.append_inj' same rfl
    obtain rfl := List.singleton_injective isLast
    exact last
  · rw [List.concat_eq_append, ← List.cons_append, ← List.append_assoc] at same
    exact before front found middle (List.append_inj' same rfl).1

end RetryQueue

/-- A queue, the idle attempts of each key since its last other one, the items that have ended
and all attempts. -/
structure RetryQueue (κ α : Type*) where
  pending : List α
  strikes : κ → Nat := fun _ => 0
  ended : List (α × RetryQueue.Ending) := []
  attempts : List (RetryQueue.Attempt κ) := []

namespace RetryQueue

variable {key : α → κ} {limit : Nat} {s : RetryQueue κ α} {k other : κ} {items : List α}

/-- The work on the items of one key. -/
def serve (limit : Nat) (s : RetryQueue κ α) (k : κ) (items : List α) : Verdict → RetryQueue κ α
  | .errored => { s with ended := s.ended ++ items.map (·, .errored) }
  | .done =>
      { s with
        strikes := Function.update s.strikes k 0
        ended := s.ended ++ items.map (·, .done)
        attempts := s.attempts ++ [⟨k, false, false⟩] }
  | .idle =>
      if limit ≤ s.strikes k + 1 then
        { s with
          strikes := Function.update s.strikes k 0
          ended := s.ended ++ items.map (·, .givenUp)
          attempts := s.attempts ++ [⟨k, true, true⟩] }
      else
        { s with
          pending := s.pending ++ items
          strikes := Function.update s.strikes k (s.strikes k + 1)
          attempts := s.attempts ++ [⟨k, true, false⟩] }

theorem serve_of_limit_le (reached : limit ≤ s.strikes k + 1) : s.serve limit k items .idle =
    { s with
      strikes := Function.update s.strikes k 0
      ended := s.ended ++ items.map (·, .givenUp)
      attempts := s.attempts ++ [⟨k, true, true⟩] } := if_pos reached

theorem serve_of_not_limit_le (under : ¬limit ≤ s.strikes k + 1) : s.serve limit k items .idle =
    { s with
      pending := s.pending ++ items
      strikes := Function.update s.strikes k (s.strikes k + 1)
      attempts := s.attempts ++ [⟨k, true, false⟩] } := if_neg under

def serveAll (limit : Nat) (verdict : κ → List α → Verdict) (s : RetryQueue κ α)
    (groups : OrderedDict κ (List α)) : RetryQueue κ α :=
  groups.foldl (fun s group => s.serve limit group.1 group.2 (verdict group.1 group.2)) s

def round (key : α → κ) (limit : Nat) (s : RetryQueue κ α) (round : Round κ α) :
    RetryQueue κ α :=
  serveAll limit round.verdict { s with pending := s.pending.drop round.size }
    (groupBy key (s.pending.take round.size))

/-! ## What is kept -/

/-- Every item is pending or has ended. -/
def Conserves (items : List α) (s : RetryQueue κ α) : Prop :=
  items.Perm (s.pending ++ s.ended.map Prod.fst)

/-- The strikes are those of the attempts, and what is given up is so at the limit. -/
structure Accounts (limit : Nat) (s : RetryQueue κ α) : Prop where
  strikes : ∀ k, s.strikes k = idleRun k s.attempts % limit
  givesUp : GivesUpAtLimit limit s.attempts

theorem perm_serve (limit : Nat) (s : RetryQueue κ α) (k : κ) (items : List α)
    (verdict : Verdict) :
    ((s.serve limit k items verdict).pending ++
        (s.serve limit k items verdict).ended.map Prod.fst).Perm
      (s.pending ++ s.ended.map Prod.fst ++ items) := by
  have ends (ending : Ending) : (items.map fun item => (item, ending)).map Prod.fst = items := by
    rw [List.map_map]
    exact List.map_id items
  have left (ending : Ending) : (s.pending ++ (s.ended ++ items.map (·, ending)).map Prod.fst).Perm
      (s.pending ++ s.ended.map Prod.fst ++ items) := by
    rw [List.map_append, ends, List.append_assoc]
  cases verdict with
  | errored => exact left .errored
  | done => exact left .done
  | idle =>
      unfold serve
      dsimp only
      split
      · exact left .givenUp
      · dsimp only
        rw [List.append_assoc, List.append_assoc]
        exact List.perm_append_comm.append_left _

theorem accounts_serve (accounts : s.Accounts limit) (k : κ) (items : List α) (verdict : Verdict)
    (pos : 0 < limit) :
    (s.serve limit k items verdict).Accounts limit := by
  have strike := accounts.strikes k
  have next : idleRun k s.attempts + 1 =
      limit * (idleRun k s.attempts / limit) + (s.strikes k + 1) := by
    rw [strike, ← Nat.add_assoc, Nat.div_add_mod]
  have below : s.strikes k < limit := by
    rw [strike]
    exact Nat.mod_lt _ pos
  have updated {idle givenUp : Bool} {count : Nat}
      (counts : count = (if idle then idleRun k s.attempts + 1 else 0) % limit) (other : κ) :
      Function.update s.strikes k count other =
        idleRun other (s.attempts ++ [⟨k, idle, givenUp⟩]) % limit := by
    rw [idleRun_append]
    by_cases same : k = other
    · subst same
      rw [Function.update_self, if_pos rfl, counts]
    · rw [Function.update_of_ne (Ne.symm same), if_neg same, accounts.strikes other]
  cases verdict with
  | errored => exact ⟨accounts.strikes, accounts.givesUp⟩
  | done =>
      exact ⟨updated (by simp), accounts.givesUp.append (by simp)⟩
  | idle =>
      unfold serve
      dsimp only
      split
      · rename_i reached
        have atLimit : idleRun k s.attempts + 1 = limit * (idleRun k s.attempts / limit + 1) := by
          rw [next, Nat.mul_succ]
          omega
        refine ⟨updated ?_, accounts.givesUp.append ?_⟩
        · rw [if_pos rfl, atLimit, Nat.mul_mod_right]
        · exact ⟨fun _ => ⟨rfl, atLimit ▸ Nat.dvd_mul_right _ _⟩, fun _ => rfl⟩
      · rename_i under
        have rest : (idleRun k s.attempts + 1) % limit = s.strikes k + 1 := by
          rw [next, Nat.mul_add_mod, Nat.mod_eq_of_lt (by omega)]
        refine ⟨updated ?_, accounts.givesUp.append ?_⟩
        · rw [if_pos rfl, rest]
        · refine ⟨nofun, fun isMultiple => ?_⟩
          have zero := Nat.mod_eq_zero_of_dvd isMultiple.2
          rw [rest] at zero
          cases zero

/-- What each group keeps, with the items it adds, the work on all groups keeps. -/
theorem perm_serveAll (limit : Nat) (verdict : κ → List α → Verdict) (s : RetryQueue κ α)
    (groups : OrderedDict κ (List α)) :
    ((serveAll limit verdict s groups).pending ++
        (serveAll limit verdict s groups).ended.map Prod.fst).Perm
      (s.pending ++ s.ended.map Prod.fst ++ groups.flatMap Prod.snd) := by
  induction groups generalizing s with
  | nil =>
      rw [List.flatMap_nil, List.append_nil]
      exact .refl _
  | cons group rest ih =>
      refine (ih _).trans ?_
      rw [List.flatMap_cons, ← List.append_assoc]
      exact (perm_serve limit s group.1 group.2 _).append_right _

theorem accounts_serveAll (accounts : s.Accounts limit) (verdict : κ → List α → Verdict)
    (pos : 0 < limit) (groups : OrderedDict κ (List α)) :
    (serveAll limit verdict s groups).Accounts limit := by
  induction groups generalizing s with
  | nil => exact accounts
  | cons group rest ih => exact ih (accounts_serve accounts _ _ _ pos)

theorem conserves_round (conserves : s.Conserves items) (r : Round κ α) :
    (s.round key limit r).Conserves items := by
  refine conserves.trans (.symm ((perm_serveAll limit r.verdict _ _).trans ?_))
  have grouped := (grouped_groupBy key (s.pending.take r.size)).perm
  calc
    (s.pending.drop r.size ++ s.ended.map Prod.fst ++
        (groupBy key (s.pending.take r.size)).flatMap Prod.snd).Perm
      (s.pending.drop r.size ++ s.ended.map Prod.fst ++ s.pending.take r.size) :=
        grouped.append_left _
    List.Perm _ (s.pending.take r.size ++ (s.pending.drop r.size ++ s.ended.map Prod.fst)) :=
        List.perm_append_comm
    List.Perm _ (s.pending ++ s.ended.map Prod.fst) := by
        rw [← List.append_assoc, List.take_append_drop]

theorem accounts_round (accounts : s.Accounts limit) (pos : 0 < limit) (r : Round κ α) :
    (s.round key limit r).Accounts limit := by
  have taken : ({ s with pending := s.pending.drop r.size } : RetryQueue κ α).Accounts limit :=
    ⟨accounts.strikes, accounts.givesUp⟩
  exact accounts_serveAll taken r.verdict pos _

/-! ## What is left to do -/

/-- The pending items of a key. -/
def waiting (key : α → κ) (s : RetryQueue κ α) (k : κ) : Nat :=
  s.pending.countP fun item => key item = k

/-- The attempts that may still be made for a key: as many as the limit says for each of its
items, without those that have been made. -/
def due (key : α → κ) (limit : Nat) (s : RetryQueue κ α) (k : κ) : Nat :=
  limit * s.waiting key k - s.strikes k

theorem countP_of_keyed {k : κ} {items : List α} (keyed : ∀ item ∈ items, key item = k)
    (other : κ) :
    items.countP (fun item => key item = other) = if other = k then items.length else 0 := by
  split
  · rename_i same
    subst same
    exact List.countP_eq_length.mpr fun item member => by simpa using keyed item member
  · rename_i ne
    refine List.countP_eq_zero.mpr fun item member => ?_
    simpa [keyed item member] using Ne.symm ne

/-- The work on the items of a key leaves the other keys alone. -/
theorem serve_other (keyed : ∀ item ∈ items, key item = k) (ne : other ≠ k) (verdict : Verdict) :
    (s.serve limit k items verdict).waiting key other = s.waiting key other ∧
      (s.serve limit k items verdict).strikes other = s.strikes other := by
  have none := countP_of_keyed keyed other
  rw [if_neg ne] at none
  cases verdict with
  | errored => exact ⟨rfl, rfl⟩
  | done => exact ⟨rfl, Function.update_of_ne ne ..⟩
  | idle =>
      unfold serve
      dsimp only
      split
      · exact ⟨rfl, Function.update_of_ne ne ..⟩
      · refine ⟨?_, Function.update_of_ne ne ..⟩
        unfold waiting
        rw [List.countP_append, none, Nat.add_zero]

/-- After the work on the items of a key less is due for it than when they were pending. -/
theorem due_serve_lt (keyed : ∀ item ∈ items, key item = k) (nonempty : items ≠ [])
    (below : s.strikes k < limit) (verdict : Verdict) :
    (s.serve limit k items verdict).due key limit k <
      limit * (s.waiting key k + items.length) - s.strikes k := by
  have some : limit ≤ limit * items.length :=
    Nat.le_mul_of_pos_right limit (List.length_pos_of_ne_nil nonempty)
  rw [Nat.mul_add]
  cases verdict with
  | errored =>
      change limit * s.waiting key k - s.strikes k < _
      omega
  | done =>
      change limit * s.waiting key k - Function.update s.strikes k 0 k < _
      rw [Function.update_self]
      omega
  | idle =>
      unfold serve
      dsimp only
      split
      · change limit * s.waiting key k - Function.update s.strikes k 0 k < _
        rw [Function.update_self]
        omega
      · change limit * (s.pending ++ items).countP (fun item => key item = k) -
          Function.update s.strikes k (s.strikes k + 1) k < _
        rw [List.countP_append, countP_of_keyed keyed k, if_pos rfl, Function.update_self,
          Nat.mul_add]
        change limit * s.waiting key k + limit * items.length - (s.strikes k + 1) < _
        omega

/-- The work on all groups: less is due for their keys, the others are left alone. -/
theorem due_serveAll (accounts : s.Accounts limit) (pos : 0 < limit)
    (verdict : κ → List α → Verdict) {groups : OrderedDict κ (List α)}
    (distinct : groups.keys.Nodup) (nonempty : ∀ group ∈ groups, group.2 ≠ [])
    (keyed : ∀ group ∈ groups, ∀ item ∈ group.2, key item = group.1) :
    (∀ k ∉ groups.keys, (serveAll limit verdict s groups).waiting key k = s.waiting key k ∧
        (serveAll limit verdict s groups).strikes k = s.strikes k) ∧
      ∀ group ∈ groups, (serveAll limit verdict s groups).due key limit group.1 <
        limit * (s.waiting key group.1 + group.2.length) - s.strikes group.1 := by
  induction groups generalizing s with
  | nil => exact ⟨fun _ _ => ⟨rfl, rfl⟩, fun _ member => absurd member List.not_mem_nil⟩
  | cons first rest ih =>
      obtain ⟨absent, distinct⟩ := List.nodup_cons.mp distinct
      obtain ⟨firstNonempty, nonempty⟩ := List.forall_mem_cons.mp nonempty
      obtain ⟨firstKeyed, keyed⟩ := List.forall_mem_cons.mp keyed
      obtain ⟨others, less⟩ := ih
        (accounts_serve accounts first.1 first.2 (verdict first.1 first.2) pos)
        distinct nonempty keyed
      have below : s.strikes first.1 < limit := by
        rw [accounts.strikes]
        exact Nat.mod_lt _ pos
      have alone {other : κ} (ne : other ≠ first.1) :
          (s.serve limit first.1 first.2 (verdict first.1 first.2)).waiting key other =
              s.waiting key other ∧
            (s.serve limit first.1 first.2 (verdict first.1 first.2)).strikes other =
              s.strikes other := serve_other firstKeyed ne _
      constructor
      · intro k outside
        obtain ⟨ne, later⟩ := not_or.mp (mt List.mem_cons.mpr outside)
        exact ⟨(others k later).1.trans (alone ne).1, (others k later).2.trans (alone ne).2⟩
      · intro group member
        rcases List.mem_cons.mp member with rfl | later
        · have here := due_serve_lt firstKeyed firstNonempty below (verdict group.1 group.2)
          unfold due at here
          rw [← (others group.1 absent).1, ← (others group.1 absent).2] at here
          exact here
        · have ne : group.1 ≠ first.1 := fun same =>
            absent (same ▸ List.mem_map_of_mem (f := Prod.fst) later)
          rw [← (alone ne).1, ← (alone ne).2]
          exact less group later

/-- A round does not add to what is due, and takes from it for a key of what it takes. -/
theorem due_round (accounts : s.Accounts limit) (pos : 0 < limit) (r : Round κ α) :
    (∀ k, (s.round key limit r).due key limit k ≤ s.due key limit k) ∧
      (s.pending ≠ [] →
        ∃ item ∈ s.pending, (s.round key limit r).due key limit (key item) <
          s.due key limit (key item)) := by
  have grouped := grouped_groupBy key (s.pending.take r.size)
  have taken : ({ s with pending := s.pending.drop r.size } : RetryQueue κ α).Accounts limit :=
    ⟨accounts.strikes, accounts.givesUp⟩
  obtain ⟨others, less⟩ := due_serveAll taken pos r.verdict grouped.nodup
    grouped.nonempty grouped.keyed
  have parts (k : κ) : s.waiting key k =
      (s.pending.take r.size).countP (fun item => key item = k) +
        ({ s with pending := s.pending.drop r.size } : RetryQueue κ α).waiting key k := by
    unfold waiting
    rw [← List.countP_append, List.take_append_drop]
  have within (group) (member : group ∈ groupBy key (s.pending.take r.size)) :
      group.2.length ≤ (s.pending.take r.size).countP fun item => key item = group.1 := by
    rw [← grouped.perm.countP_eq]
    have own := countP_of_keyed (grouped.keyed group member) group.1
    rw [if_pos rfl] at own
    rw [← own]
    have part : group.2.Sublist ((groupBy key (s.pending.take r.size)).flatMap Prod.snd) := by
      rw [List.flatMap_def]
      exact List.sublist_flatten_of_mem (List.mem_map_of_mem member)
    exact part.countP_le
  have lessThere (group) (member : group ∈ groupBy key (s.pending.take r.size)) :
      (s.round key limit r).due key limit group.1 < s.due key limit group.1 := by
    refine (less group member).trans_le (Nat.sub_le_sub_right (Nat.mul_le_mul_left _ ?_) _)
    rw [parts, Nat.add_comm]
    exact Nat.add_le_add_right (within group member) _
  constructor
  · intro k
    by_cases inGroups : k ∈ (groupBy key (s.pending.take r.size)).keys
    · obtain ⟨group, member, rfl⟩ := List.mem_map.mp inGroups
      exact (lessThere group member).le
    · obtain ⟨waits, strikes⟩ := others k inGroups
      change limit * (s.round key limit r).waiting key k - (s.round key limit r).strikes k ≤ _
      rw [show (s.round key limit r).waiting key k = _ from waits,
        show (s.round key limit r).strikes k = _ from strikes]
      refine Nat.sub_le_sub_right (Nat.mul_le_mul_left _ ?_) _
      rw [parts]
      exact Nat.le_add_left _ _
  · intro some
    obtain ⟨item, rest, same⟩ := List.exists_cons_of_ne_nil some
    have first : item ∈ s.pending.take r.size := by
      rw [same, ← Nat.succ_pred_eq_of_pos r.pos, List.take_succ_cons]
      exact .head _
    obtain ⟨group, member, inGroup⟩ :=
      List.mem_flatMap.mp (grouped.perm.mem_iff.mpr first)
    refine ⟨item, List.mem_of_mem_take first, ?_⟩
    rw [grouped.keyed group member item inGroup]
    exact lessThere group member

/-! ## Runs -/

/-- A queue with nothing done yet. -/
def start (items : List α) : RetryQueue κ α where
  pending := items

theorem accounts_start (limit : Nat) (items : List α) :
    (start items : RetryQueue κ α).Accounts limit where
  strikes := fun _ => (Nat.zero_mod limit).symm
  givesUp := by
    intro before attempt after same
    exact absurd same.symm (List.append_ne_nil_of_right_ne_nil _ (List.cons_ne_nil _ _))

omit [DecidableEq κ] in
theorem conserves_start (items : List α) : (start items : RetryQueue κ α).Conserves items := by
  change items.Perm (items ++ [])
  rw [List.append_nil]

/-- What is due for all keys together. -/
def totalDue (key : α → κ) (limit : Nat) (keys : List κ) (s : RetryQueue κ α) : Nat :=
  (keys.map (s.due key limit)).sum

theorem pending_round_of_nil (nothing : s.pending = []) (r : Round κ α) :
    (s.round key limit r).pending = [] := by
  unfold round
  rw [nothing, List.take_nil, List.drop_nil]
  rfl

theorem pending_run_of_nil (nothing : s.pending = []) (rounds : List (Round κ α)) :
    (run (round key limit) s rounds).pending = [] := by
  induction rounds generalizing s with
  | nil => exact nothing
  | cons r rest ih => exact ih (pending_round_of_nil nothing r)

/-- As long as something is pending, every round takes from what is due. -/
theorem totalDue_run (accounts : s.Accounts limit) (pos : 0 < limit)
    (conserves : s.Conserves items) (rounds : List (Round κ α)) :
    (run (round key limit) s rounds).pending = [] ∨
      totalDue key limit (items.map key).dedup (run (round key limit) s rounds) + rounds.length ≤
        totalDue key limit (items.map key).dedup s := by
  induction rounds generalizing s with
  | nil => exact .inr le_rfl
  | cons r rest ih =>
      by_cases nothing : s.pending = []
      · exact .inl (pending_run_of_nil nothing (r :: rest))
      · obtain ⟨atMost, lessThere⟩ := due_round accounts pos r
        obtain ⟨item, member, less⟩ := lessThere nothing
        have isKey : key item ∈ (items.map key).dedup :=
          List.mem_dedup.mpr (List.mem_map_of_mem
            (conserves.mem_iff.mpr (List.mem_append_left _ member)))
        have step : totalDue key limit (items.map key).dedup (s.round key limit r) <
            totalDue key limit (items.map key).dedup s :=
          List.sum_lt_sum _ _ (fun k _ => atMost k) ⟨key item, isKey, less⟩
        refine (ih (accounts_round accounts pos r) (conserves_round conserves r)).imp_right
          fun later => ?_
        rw [run_cons, List.length_cons]
        omega

/-- At first as many attempts are due as the limit says for each item. -/
theorem totalDue_start (limit : Nat) (items : List α) :
    totalDue key limit (items.map key).dedup (start items) = limit * items.length := by
  have waits (k : κ) : (start items : RetryQueue κ α).due key limit k =
      limit * (items.map key).count k := by
    change limit * items.countP (fun item => key item = k) - 0 = _
    rw [Nat.sub_zero, List.count, List.countP_map]
    rfl
  unfold totalDue
  rw [List.map_congr_left fun k _ => waits k, List.sum_map_mul_left,
    List.sum_map_count_dedup_eq_length, List.length_map]

/-- Something is due as long as something is pending. -/
theorem pending_eq_nil_of_totalDue (accounts : s.Accounts limit) (pos : 0 < limit)
    (conserves : s.Conserves items)
    (nothing : totalDue key limit (items.map key).dedup s = 0) : s.pending = [] := by
  by_contra some
  obtain ⟨item, rest, same⟩ := List.exists_cons_of_ne_nil some
  have member : item ∈ s.pending := same ▸ List.mem_cons_self
  have isKey : key item ∈ (items.map key).dedup :=
    List.mem_dedup.mpr (List.mem_map_of_mem
      (conserves.mem_iff.mpr (List.mem_append_left _ member)))
  have below : s.strikes (key item) < limit := by
    rw [accounts.strikes]
    exact Nat.mod_lt _ pos
  have waits : 0 < s.waiting key (key item) :=
    List.countP_pos_iff.mpr ⟨item, member, by simp⟩
  have enough : limit ≤ limit * s.waiting key (key item) := Nat.le_mul_of_pos_right limit waits
  have zero : s.due key limit (key item) = 0 :=
    List.sum_eq_zero_iff.mp nothing _ (List.mem_map_of_mem isKey)
  unfold due at zero
  omega

/-- In every run each item is pending or has ended, items are given up at the limit, and nothing
is pending after as many rounds as the limit says for each item. -/
theorem run_start (key : α → κ) (pos : 0 < limit) (items : List α) (rounds : List (Round κ α)) :
    (run (round key limit) (start items) rounds).Conserves items ∧
      (run (round key limit) (start items) rounds).Accounts limit ∧
      (limit * items.length ≤ rounds.length →
        (run (round key limit) (start items) rounds).pending = []) := by
  have kept : (run (round key limit) (start items) rounds).Conserves items ∧
      (run (round key limit) (start items) rounds).Accounts limit :=
    Reachable.invariant (fun s : RetryQueue κ α => s.Conserves items ∧ s.Accounts limit)
      ⟨conserves_start items, accounts_start limit items⟩
      (fun _ r kept => ⟨conserves_round kept.1 r, accounts_round kept.2 pos r⟩)
      (.of_run _ _)
  refine ⟨kept.1, kept.2, fun enough => ?_⟩
  rcases totalDue_run (accounts_start limit items) pos (conserves_start items)
    rounds with nothing | taken
  · exact nothing
  · rw [totalDue_start] at taken
    have nothing : totalDue key limit (items.map key).dedup
        (run (round key limit) (start items) rounds) = 0 := by omega
    exact pending_eq_nil_of_totalDue kept.2 pos kept.1 nothing

end RetryQueue

end YouMi.Library

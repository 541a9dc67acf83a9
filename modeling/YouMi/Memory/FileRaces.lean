import YouMi.Library.Runs
import YouMi.Memory.FileRefinement

/-!
# Saves and deletions of one file backend at the same time

A save reads the file of its agent and writes it later; a deletion reads one file
after another until it has found the session, and writes that file later.  Other
operations come between.  Nothing keeps a file from being written between the read
and the write of an operation, whose write then undoes what was written meanwhile.
-/

namespace YouMi.Memory

open YouMi.Library YouMi.Python

/-- The arguments of a save. -/
structure SaveCall where
  world : World
  sessionId : String
  agentId : String
  messages : List Dict
  metadata : Option Dict
  tenant : String

/-- An operation under way: what it has read, or the directories it has yet to look at. -/
inductive FileWork where
  | save (call : SaveCall) (read : Option AgentData)
  | delete (sessionId : String) (rest : List String) (found : Option (String × AgentData))
  | finished

def FileWork.sessionId? : FileWork → Option String
  | .save call _ => some call.sessionId
  | .delete sessionId _ _ => some sessionId
  | .finished => none

/--
One backend and its operations.  `last` is what the finished operations leave: the
messages of the last save of a session, nothing after its deletion.
-/
structure FileRaces where
  backend : FileBackend := {}
  works : List FileWork := []
  last : String → Option (List MessageRecord) := fun _ => none

namespace FileRaces

inductive Action where
  | startSave (call : SaveCall)
  | startDelete (world : World) (sessionId : String)
  | advance (index : Nat)

def become (s : FileRaces) (index : Nat) (work : FileWork) : FileRaces :=
  { s with works := s.works.set index work }

/-- The next step of the operation at a place: a read, a write, or its end. -/
def proceed (s : FileRaces) (index : Nat) : FileWork → FileRaces
  | .save call none =>
      s.become index (.save call (some (s.backend.readData (agentDirectory call.agentId))))
  | .save call (some data) =>
      match call.messages.mapM MessageRecord.fromOpenaiMessage with
      | none => s.become index .finished
      | some records =>
          { works := s.works.set index .finished
            backend := s.backend.writeData (agentDirectory call.agentId)
              (data.put call.world call.sessionId call.agentId records call.metadata call.tenant)
            last := Function.update s.last call.sessionId (some records) }
  | .delete sessionId _ (some (name, data)) =>
      { works := s.works.set index .finished
        backend := s.backend.writeData (.inside [name]) (data.remove sessionId)
        last := Function.update s.last sessionId none }
  | .delete sessionId (name :: rest) none =>
      let data := s.backend.readData (.inside [name])
      if (data.sessions.lookup sessionId).isSome then
        s.become index (.delete sessionId rest (some (name, data)))
      else s.become index (.delete sessionId rest none)
  | .delete sessionId [] none =>
      { s with
        works := s.works.set index .finished
        last := Function.update s.last sessionId none }
  | .finished => s

def advance (s : FileRaces) (index : Nat) : FileRaces :=
  match s.works[index]? with
  | some work => s.proceed index work
  | none => s

def step (s : FileRaces) : FileRaces.Action → FileRaces
  | .startSave call => { s with works := s.works ++ [.save call none] }
  | .startDelete world sessionId =>
      let names := world.iterdir s.backend.agentDirs
      { s with works := s.works ++ [.delete sessionId names none] }
  | .advance index => s.advance index

/-- No operation under way is on the session. -/
def Free (s : FileRaces) (sessionId : String) : Prop :=
  ∀ work ∈ s.works, work.sessionId? ≠ some sessionId

instance (s : FileRaces) : DecidablePred s.Free :=
  fun _ => inferInstanceAs (Decidable (∀ work ∈ s.works, _))

/-- Operations under way are on distinct sessions. -/
def Distinct (s : FileRaces) : FileRaces.Action → Prop
  | .startSave call => s.Free call.sessionId
  | .startDelete _ sessionId => s.Free sessionId
  | .advance _ => True

instance (s : FileRaces) : DecidablePred s.Distinct
  | .startSave call => inferInstanceAs (Decidable (s.Free call.sessionId))
  | .startDelete _ sessionId => inferInstanceAs (Decidable (s.Free sessionId))
  | .advance _ => .isTrue trivial

/-- A load finds what the last operation of a session has left. -/
structure Settled (s : FileRaces) : Prop where
  loaded : ∀ sessionId records (world : World), s.last sessionId = some records →
    s.backend.loadMessages world sessionId =
      .messages (records.map MessageRecord.toOpenaiMessage)
  gone : ∀ sessionId (world : World), s.last sessionId = none →
    s.backend.find sessionId (world.iterdir s.backend.agentDirs) = none

def Finished (s : FileRaces) : Prop := ∀ work ∈ s.works, work.sessionId? = none

instance (s : FileRaces) : Decidable s.Finished :=
  inferInstanceAs (Decidable (∀ work ∈ s.works, _))

/-- A save is carried out as it should be: its agent's name is the name of a directory, the
session is not stored for another agent, and its messages have a JSON form. -/
structure Storable (s : FileRaces) (call : SaveCall) (records : List MessageRecord) : Prop where
  placed : ∃ name, agentDirectory call.agentId = .inside [name]
  owner : ∀ directory session,
    (s.backend.readData directory).sessions.lookup call.sessionId = some session →
      session.agentId = call.agentId
  messages : ∀ record ∈ records, record.rawData.isJson = true

/-- What an operation is about to write a file with is what the file still has. -/
def WritesCurrent (s : FileRaces) : FileWork → Prop
  | .save call (some data) =>
      ∀ records, call.messages.mapM MessageRecord.fromOpenaiMessage = some records →
        s.backend.Current (agentDirectory call.agentId) data ∧ s.Storable call records
  | .delete _ _ (some (name, data)) => s.backend.Current (.inside [name]) data
  | _ => True

def Timely (s : FileRaces) : FileRaces.Action → Prop
  | .advance index => ∀ work, s.works[index]? = some work → s.WritesCurrent work
  | _ => True

/-! ## The map behind the files -/

/-- A deletion has its session's directory before it, or has found it. -/
def Ready (map : SessionMap) : FileWork → Prop
  | .delete sessionId rest none => ∀ session name, map sessionId = some session →
      agentDirectory session.agentId = .inside [name] → name ∈ rest
  | .delete sessionId _ (some (name, _)) => ∃ session, map sessionId = some session ∧
      agentDirectory session.agentId = .inside [name]
  | _ => True

/-- The files hold a map with the messages that the finished operations left. -/
structure Inv (s : FileRaces) (map : SessionMap) : Prop where
  holds : s.backend.Holds map
  last : ∀ sessionId, (map sessionId).map Session.messages = s.last sessionId
  ready : ∀ (index : Nat) work, s.works[index]? = some work → Ready map work
  apart : ∀ (i j : Nat) first second sessionId, s.works[i]? = some first →
    s.works[j]? = some second → first.sessionId? = some sessionId →
      second.sessionId? = some sessionId → i = j

section Step

variable {s : FileRaces} {map map' : SessionMap} {work old : FileWork} {index : Nat}
  {sessionId : String}

theorem Ready.congr (ready : Ready map work)
    (same : ∀ sessionId, work.sessionId? = some sessionId → map' sessionId = map sessionId) :
    Ready map' work := by
  cases work with
  | save call read => trivial
  | delete sessionId rest found =>
      have here := same sessionId rfl
      cases found with
      | none =>
          intro session name present
          rw [here] at present
          exact ready session name present
      | some found =>
          obtain ⟨session, present, placed⟩ := ready
          exact ⟨session, here.trans present, placed⟩
  | finished => trivial

theorem Inv.settled (inv : s.Inv map) : s.Settled where
  loaded := by
    intro sessionId records world last
    rw [inv.holds.loadMessages, inv.last, last]
    rfl
  gone := by
    intro sessionId world last
    refine inv.holds.find_of_none ?_ _
    rw [← inv.last, Option.map_eq_none_iff] at last
    exact last

/-- One operation has moved on, and only its own session has changed. -/
theorem Inv.become (inv : s.Inv map) (at_index : s.works[index]? = some old)
    {backend : FileBackend} {last : String → Option (List MessageRecord)}
    (holds : backend.Holds map')
    (messages : ∀ sessionId, (map' sessionId).map Session.messages = last sessionId)
    (own : ∀ sessionId, work.sessionId? = some sessionId → old.sessionId? = some sessionId)
    (frame : ∀ sessionId, old.sessionId? ≠ some sessionId → map' sessionId = map sessionId)
    (ready : Ready map' work) :
    Inv { backend := backend, works := s.works.set index work, last := last } map' := by
  -- What stands at a place of the new list has the session of what stood there before.
  have before : ∀ (i : Nat) first, (s.works.set index work)[i]? = some first →
      (i = index ∧ first = work) ∨ (i ≠ index ∧ s.works[i]? = some first) := by
    intro i first found
    rw [List.getElem?_set] at found
    by_cases here : index = i
    · rw [if_pos here] at found
      split at found
      · cases found
        exact .inl ⟨here.symm, rfl⟩
      · cases found
    · rw [if_neg here] at found
      exact .inr ⟨fun same => here same.symm, found⟩
  have owner : ∀ (i : Nat) first sessionId, (s.works.set index work)[i]? = some first →
      first.sessionId? = some sessionId →
      ∃ was, s.works[i]? = some was ∧ was.sessionId? = some sessionId := by
    intro i first sessionId found named
    rcases before i first found with ⟨rfl, rfl⟩ | ⟨_, there⟩
    · exact ⟨old, at_index, own sessionId named⟩
    · exact ⟨first, there, named⟩
  refine ⟨holds, messages, fun i first found => ?_, ?_⟩
  · rcases before i first found with ⟨rfl, rfl⟩ | ⟨ne, there⟩
    · exact ready
    · refine (inv.ready i first there).congr fun sessionId named => frame sessionId ?_
      exact fun mine => ne (inv.apart i index first old sessionId there at_index named mine)
  · intro i j first second sessionId found found' named named'
    obtain ⟨was, there, same⟩ := owner i first sessionId found named
    obtain ⟨was', there', same'⟩ := owner j second sessionId found' named'
    exact inv.apart i j was was' sessionId there there' same same'

/-- An operation has read, and written nothing. -/
theorem Inv.read (inv : s.Inv map) (at_index : s.works[index]? = some old)
    (own : ∀ sessionId, work.sessionId? = some sessionId → old.sessionId? = some sessionId)
    (ready : Ready map work) : (s.become index work).Inv map :=
  inv.become at_index inv.holds inv.last own (fun _ _ => rfl) ready

/-- An operation has ended and left its session as it should. -/
theorem Inv.finish (inv : s.Inv map) (at_index : s.works[index]? = some old)
    (sessionId : String) (mine : old.sessionId? = some sessionId) {backend : FileBackend}
    {session : Option Session} (holds : backend.Holds (Function.update map sessionId session)) :
    Inv { backend := backend, works := s.works.set index .finished,
          last := Function.update s.last sessionId (session.map Session.messages) }
      (Function.update map sessionId session) := by
  refine inv.become at_index holds (fun other => ?_) (fun _ named => by cases named)
    (fun other ne => ?_) trivial
  · by_cases same : other = sessionId
    · subst same
      rw [Function.update_self, Function.update_self]
    · rw [Function.update_of_ne same, Function.update_of_ne same, inv.last]
  · refine Function.update_of_ne (fun same => ?_) _ _
    subst same
    exact ne mine

theorem Inv.start (inv : s.Inv map) (named : work.sessionId? = some sessionId)
    (free : s.Free sessionId) (ready : Ready map work) :
    Inv { s with works := s.works ++ [work] } map := by
  have cases_of : ∀ (i : Nat) first, (s.works ++ [work])[i]? = some first →
      s.works[i]? = some first ∨ (i = s.works.length ∧ first = work) := by
    intro i first found
    rcases Nat.lt_trichotomy i s.works.length with lt | eq | gt
    · rw [List.getElem?_append_left lt] at found
      exact .inl found
    · subst eq
      rw [List.getElem?_append_right (Nat.le_refl _), Nat.sub_self] at found
      cases found
      exact .inr ⟨rfl, rfl⟩
    · rw [List.getElem?_eq_none (by simp; omega)] at found
      cases found
  refine ⟨inv.holds, inv.last, fun i first found => ?_, ?_⟩
  · rcases cases_of i first found with there | ⟨_, rfl⟩
    · exact inv.ready i first there
    · exact ready
  · intro i j first second other found found' mine mine'
    rcases cases_of i first found with there | ⟨rfl, rfl⟩
    · rcases cases_of j second found' with there' | ⟨rfl, rfl⟩
      · exact inv.apart i j first second other there there' mine mine'
      · rw [named] at mine'
        cases mine'
        exact absurd mine (free first (List.mem_of_getElem? there))
    · rcases cases_of j second found' with there' | ⟨rfl, rfl⟩
      · rw [named] at mine
        cases mine
        exact absurd mine' (free second (List.mem_of_getElem? there'))
      · rfl

/-- A save writes what it has read, with its session. -/
theorem Inv.proceed_save (inv : s.Inv map) {call : SaveCall} {data : AgentData}
    (at_index : s.works[index]? = some (.save call (some data)))
    (current : s.WritesCurrent (.save call (some data))) :
    ∃ map', (s.proceed index (.save call (some data))).Inv map' := by
  unfold FileRaces.proceed
  dsimp only
  cases accepted : call.messages.mapM MessageRecord.fromOpenaiMessage with
  | none => exact ⟨map, inv.read at_index (fun _ named => by cases named) trivial⟩
  | some records =>
      obtain ⟨same, storable⟩ := current records accepted
      have owner : ∀ session, map call.sessionId = some session →
          session.agentId = call.agentId := fun session present =>
        storable.owner _ _ (inv.holds.lookup_eq_some_iff.mpr ⟨session, present, rfl, rfl⟩)
      have done := inv.finish at_index call.sessionId rfl
        (inv.holds.writePut call.world records call.metadata call.tenant storable.placed owner same)
      rw [Option.map_some, FileBackend.savedSession_messages storable.messages] at done
      exact ⟨_, done⟩

/-- A deletion that has come to the end of its scan has no session to delete. -/
theorem Inv.absent_of_scanned (inv : s.Inv map) (ready : Ready map (.delete sessionId [] none)) :
    map sessionId = none := by
  cases present : map sessionId with
  | none => rfl
  | some session =>
      obtain ⟨name, placed⟩ := inv.holds.placed sessionId session present
      cases ready session name present placed

/-- A deletion looks into the next directory. -/
theorem Inv.proceed_scan (inv : s.Inv map) {name : String} {rest : List String}
    (at_index : s.works[index]? = some (.delete sessionId (name :: rest) none)) :
    (s.proceed index (.delete sessionId (name :: rest) none)).Inv map := by
  have ready := inv.ready index _ at_index
  unfold FileRaces.proceed
  dsimp only
  cases here : (s.backend.readData (.inside [name])).sessions.lookup sessionId with
  | none =>
      refine inv.read at_index (fun _ named => named) ?_
      intro session other present placed
      rcases List.mem_cons.mp (ready session other present placed) with rfl | later
      · have there := inv.holds.lookup_eq_some_iff.mpr ⟨session, present, placed, rfl⟩
        rw [here] at there
        cases there
      · exact later
  | some stored =>
      obtain ⟨session, present, placed, _⟩ := inv.holds.lookup_eq_some_iff.mp here
      exact inv.read at_index (fun _ named => named) ⟨session, present, placed⟩

theorem Inv.proceed (inv : s.Inv map) (at_index : s.works[index]? = some work)
    (current : s.WritesCurrent work) : ∃ map', (s.proceed index work).Inv map' := by
  have ready := inv.ready index work at_index
  cases work with
  | finished => exact ⟨map, inv⟩
  | save call read =>
      cases read with
      | none => exact ⟨map, inv.read at_index (fun _ named => named) trivial⟩
      | some data => exact inv.proceed_save at_index current
  | delete sessionId rest found =>
      cases found with
      | some found =>
          obtain ⟨name, data⟩ := found
          obtain ⟨session, present, placed⟩ := ready
          exact ⟨_, inv.finish at_index sessionId rfl
            (inv.holds.writeRemove present placed current)⟩
      | none =>
          cases rest with
          | nil =>
              exact ⟨_, inv.finish at_index sessionId rfl
                (inv.holds.forget (inv.absent_of_scanned ready))⟩
          | cons name rest => exact ⟨map, inv.proceed_scan at_index⟩

theorem Inv.step {action : FileRaces.Action} (inv : s.Inv map) (distinct : s.Distinct action)
    (timely : s.Timely action) : ∃ map', (s.step action).Inv map' := by
  cases action with
  | startSave call => exact ⟨map, inv.start rfl distinct trivial⟩
  | startDelete world sessionId =>
      refine ⟨map, inv.start rfl distinct fun session name present placed => ?_⟩
      exact FileBackend.mem_iterdir_of_lookup
        (inv.holds.lookup_eq_some_iff.mpr ⟨session, present, placed, rfl⟩)
  | advance index =>
      unfold FileRaces.step
      dsimp only
      unfold FileRaces.advance
      cases at_index : s.works[index]? with
      | none => exact ⟨map, inv⟩
      | some work => exact inv.proceed at_index (timely work at_index)

end Step

theorem inv_empty : Inv {} fun _ => none := by
  refine ⟨⟨fun _ _ => rfl, ?_⟩, fun _ => rfl, ?_, ?_⟩
  · intro sessionId session present
    cases present
  · intro index work found
    cases found
  · intro i j first second sessionId found
    cases found

end FileRaces

end YouMi.Memory
